import MazeDuel.Proofs.World.Bodies
import MazeDuel.Proofs.World.Given
/-!
Reloading: a grid that is written as a document and read back. Reading starts from the border walls,
but the document lists the walls of every cell, so nothing is left of them.
-/

namespace MazeDuel

/-- What is written item by item is read back item by item. -/
theorem mapM_map_eq_ok {ε α β : Type} {read : β → Except ε α} {write : α → β} {items : List α}
    (h : ∀ a ∈ items, read (write a) = .ok a) : (items.map write).mapM read = .ok items := by
  induction items with
  | nil => rfl
  | cons a items ih =>
    obtain ⟨ha, hitems⟩ := List.forall_mem_cons.mp h
    rw [List.map_cons, List.mapM_cons, ha, ih hitems]
    rfl

namespace Grid

theorem numeric_of_contains {g : Grid} {p : Place} (h : g.contains p = .ok true) :
    p.Numeric ∧ p.isKey = true := by
  obtain ⟨x, y, m, n, hvalues, hx, hy⟩ := numbers_of_contains h
  refine ⟨?_, Place.isKey_of_numbers hvalues hx hy⟩
  unfold Place.Numeric
  simp [hvalues, hx, hy]

theorem sortable_of_numeric {α : Type} {t : Table α} (h : t.loose.Tidy) (hranked : t.Ranked)
    (hnumeric : ∀ row ∈ t.rows, row.1.Numeric) : t.Sortable := by
  refine (Table.pairwise_ranks h hranked).imp_of_mem fun {row other} hrow hother hdiffer => ?_
  obtain ⟨r, hr⟩ := hranked row hrow
  obtain ⟨s, hs⟩ := hranked other hother
  rw [hr, hs] at hdiffer
  rw [Place.Ordered, Place.before_iff hr hs, Place.before_iff hs hr]
  rcases Place.numeric_cases (hnumeric row hrow) (hnumeric other hother) hr hs with hlt | rfl | hgt
  · exact .inl hlt
  · exact absurd rfl hdiffer
  · exact .inr hgt

namespace Orderly

variable {g : Grid}

theorem ranked_powerups (h : g.Orderly) : g.powerupTable.Ranked := fun row hrow =>
  have hin := (h.powerupPlaces row hrow).1
  Place.exists_ranks (numeric_of_contains hin).2 (same_of_contains hin)

theorem sortable_powerups (h : g.Orderly) : g.powerupTable.Sortable :=
  sortable_of_numeric h.powerups h.ranked_powerups fun row hrow =>
    (numeric_of_contains (h.powerupPlaces row hrow).1).1

end Orderly

def wallEntry (row : Place × Sides) : Json :=
  .object [("cell", row.1.toJson), ("sides", .list (row.2.toList.map wordJson))]

def powerupEntry (row : Place × Powerup) : Json :=
  .object [("cell", row.1.toJson), ("type", wordJson row.2)]

/-- The document of a grid with given listings. -/
def record (g : Grid) (walls : List (Place × Sides)) (powerups : List (Place × Powerup)) : Json :=
  .object [
    ("width", g.widthJson),
    ("height", g.heightJson),
    ("exit", Json.ofOption Place.toJson g.exit),
    ("walls", .list (walls.map wallEntry)),
    ("powerups", .list (powerups.map powerupEntry))]

theorem document_eq (g : Grid) : g.document = (do
    return g.record (← g.wallTable.listed) (← g.powerupTable.listed)) := rfl

theorem wallRow_wallEntry {row : Place × Sides} (hkey : row.1.isKey = true) (hplain : row.1.Plain) :
    wallRow (wallEntry row) = .ok row := by
  have hread : Place.ofJson row.1.toJson = .ok row.1 := congrArg Except.ok hplain
  have hasKey : row.1.asKey = .ok row.1 := if_pos hkey
  show (do
    let sides ← (row.2.toList.map wordJson).mapM readWord
    let p ← Place.ofJson row.1.toJson
    return (← p.asKey, Sides.ofList sides)) = Except.ok row
  rw [mapM_map_eq_ok fun side _ => readWord_wordJson side, hread]
  show (do return (← row.1.asKey, Sides.ofList row.2.toList)) = Except.ok row
  rw [hasKey, Sides.ofList_toList]
  rfl

theorem powerupRow_powerupEntry {row : Place × Powerup} (hplain : row.1.Plain) :
    powerupRow (powerupEntry row) = .ok row := by
  have hread : Place.ofJson row.1.toJson = .ok row.1 := congrArg Except.ok hplain
  show (do
    let p ← Place.ofJson row.1.toJson
    return (p, ← readWord (wordJson row.2))) = Except.ok row
  rw [hread, readWord_wordJson]
  rfl

theorem foldlM_powerupEntry {g : Grid} {rows : List (Place × Powerup)}
    (h : ∀ row ∈ rows, g.contains row.1 = .ok true ∧ row.1.Plain) :
    (rows.map powerupEntry).foldlM readPowerup g =
      .ok (g.withPowerups (g.powerupTable.putAll rows)) := by
  induction rows generalizing g with
  | nil => rfl
  | cons row rows ih =>
    obtain ⟨hrow, hrows⟩ := List.forall_mem_cons.mp h
    rw [List.map_cons, List.foldlM_cons, readPowerup_eq, powerupRow_powerupEntry hrow.2]
    show g.placePowerupAt row.1 row.2 >>= _ = _
    rw [placePowerupAt_eq hrow.1]
    exact ih (g := g.withPowerups (g.powerupTable.put row.1 row.2)) hrows

/-- A size as it was given is read as that size. -/
theorem read_size {flag : Bool} {n : Nat} (hn : 1 ≤ n) (hflag : flag = true → n = 1) :
    let value : Json := if flag then .bool true else .whole n
    ∃ q, value.toQuantity = .ok q ∧ q.below 1 = false ∧ value.toInt = .ok (n : Int) := by
  cases flag with
  | true =>
    rw [hflag rfl]
    exact ⟨.flag true, rfl, rfl, rfl⟩
  | false =>
    refine ⟨.whole n, rfl, ?_, rfl⟩
    simp only [Quantity.below, Quantity.lt_whole, decide_eq_false_iff_not]
    omega

/-- A new grid of the size of another one, in the form in which that was given. -/
def bare (g : Grid) : Grid :=
  { build g.width g.height false with
    oddments := {
      widthIsFlag := g.oddments.widthIsFlag
      heightIsFlag := g.oddments.heightIsFlag } }

theorem make_sizes {g : Grid} (h : g.Orderly) :
    make g.widthJson g.heightJson false = .ok g.bare := by
  obtain ⟨w, hw, hwlow, hwint⟩ := read_size h.width h.widthFlag
  obtain ⟨q, hq, hqlow, hqint⟩ := read_size h.height h.heightFlag
  unfold make widthJson heightJson
  simp only [hw, hwlow, hwint, hq, hqlow, hqint, bind, Except.bind, pure, Except.pure,
    Bool.false_eq_true, if_false, Int.toNat_natCast, bare]
  cases g.oddments.widthIsFlag <;> cases g.oddments.heightIsFlag <;> rfl

theorem readExit_record {g g' : Grid} (hnone : g'.exit = none)
    (hexit : ∀ p, g.exit = some p → g'.contains p = .ok true ∧ p.Plain) :
    g'.readExit (Json.ofOption Place.toJson g.exit) = .ok { g' with exit := g.exit } := by
  cases hp : g.exit with
  | none =>
    show Except.ok g' = .ok { g' with exit := none }
    rw [← hnone]
  | some p =>
    obtain ⟨hin, hplain⟩ := hexit p hp
    have hread : Place.ofJson p.toJson = .ok p := congrArg Except.ok hplain
    show (do g'.setExitAt (← Place.ofJson p.toJson)) = _
    rw [hread]
    exact setExitAt_eq hin

/-- Two grids that show no difference: of one size, given in one form, with one exit, and with the
same walls and pickups under every place. -/
structure Agrees (g g' : Grid) : Prop where
  width : g'.width = g.width
  height : g'.height = g.height
  widthForm : g'.widthJson = g.widthJson
  heightForm : g'.heightJson = g.heightJson
  exit : g'.exit = g.exit
  sides : ∀ p, g'.sidesAt? p = g.sidesAt? p
  powerups : ∀ p, (g'.takePowerupAt p).1 = (g.takePowerupAt p).1

/-- What is read back from a document of given listings. -/
def reread (g : Grid) (walls : List (Place × Sides)) (powerups : List (Place × Powerup)) : Grid :=
  { g.bare.withWalls (g.bare.wallTable.putAll walls) with exit := g.exit }.withPowerups
    (g.bare.powerupTable.putAll powerups)

theorem ofJson_record {g : Grid} (h : g.Orderly) {walls : List (Place × Sides)}
    {powerups : List (Place × Powerup)} (hwalls : ∀ row ∈ walls, row ∈ g.wallTable.rows)
    (hpowerups : ∀ row ∈ powerups, row ∈ g.powerupTable.rows) :
    ofJson (g.record walls powerups) = .ok (g.reread walls powerups) := by
  have hrows : ∀ row ∈ walls, wallRow (wallEntry row) = .ok row := fun row hrow =>
    have hplace := h.wallPlaces row (hwalls row hrow)
    wallRow_wallEntry hplace.1 hplace.2
  rw [ofJson_eq]
  show (do
    let bare ← make g.widthJson g.heightJson false
    let rows ← (walls.map wallEntry).mapM wallRow
    let opened ← (bare.withWalls (bare.wallTable.putAll rows)).readExit
      (Json.ofOption Place.toJson g.exit)
    (powerups.map powerupEntry).foldlM readPowerup opened) = _
  rw [make_sizes h, mapM_map_eq_ok hrows]
  show (do
    let opened ← (g.bare.withWalls (g.bare.wallTable.putAll walls)).readExit
      (Json.ofOption Place.toJson g.exit)
    (powerups.map powerupEntry).foldlM readPowerup opened) = _
  have hopened : (g.bare.withWalls (g.bare.wallTable.putAll walls)).readExit
      (Json.ofOption Place.toJson g.exit) =
        .ok { g.bare.withWalls (g.bare.wallTable.putAll walls) with exit := g.exit } :=
    readExit_record rfl h.exit
  rw [hopened]
  exact foldlM_powerupEntry fun row hrow => h.powerupPlaces row (hpowerups row hrow)

theorem tidy_bare (g : Grid) : g.bare.wallTable.loose.Tidy := Loose.tidy_empty

/-- The document lists the walls of every cell, so the border walls are all replaced. -/
theorem covered_walls {g : Grid} (h : g.Orderly) :
    ∀ row ∈ g.bare.wallTable.rows, ∃ sides, (row.1, sides) ∈ g.wallTable.rows := by
  intro row hrow
  obtain ⟨c, hc, hplace⟩ := Table.exists_cell_of_mem_rows rfl hrow
  have hthere : g.bare.walls.contains c = true := by
    rw [Std.TreeMap.contains_eq_isSome_getElem?, Option.isSome_iff_exists]
    exact ⟨row.2, hc⟩
  have hin : g.inBounds c = true := (charted_build g.width g.height false c).symm.trans hthere
  obtain ⟨hnoted, hform⟩ := h.cells c hin
  rw [Std.TreeMap.contains_eq_isSome_getElem?, Option.isSome_iff_exists] at hnoted
  obtain ⟨sides, hsides⟩ := hnoted
  exact ⟨sides, Table.mem_rows.mpr (.inl ⟨c, hsides, hplace.trans hform.symm⟩)⟩

theorem covered_powerups (g : Grid) :
    ∀ row ∈ g.bare.powerupTable.rows, ∃ kind, (row.1, kind) ∈ g.powerupTable.rows := by
  intro row hrow
  obtain ⟨c, hc, -⟩ := Table.exists_cell_of_mem_rows rfl hrow
  have hc : (∅ : Std.TreeMap Cell Powerup)[c]? = some row.2 := hc
  rw [Std.TreeMap.getElem?_emptyc] at hc
  cases hc

/-- Whether the places under which walls are noted can be sorted. -/
def Sortable (g : Grid) : Prop := g.noted.Pairwise fun p q =>
  Place.before? p.values q.values = some true ∨ Place.before? q.values p.values = some true

theorem sortable_iff {g : Grid} (hranked : g.wallTable.Ranked) :
    g.Sortable ↔ g.wallTable.Sortable := by
  unfold Sortable Table.Sortable noted
  rw [List.pairwise_map]
  refine List.Pairwise.iff_of_mem fun {row other} hrow hother => ?_
  obtain ⟨r, hr⟩ := hranked row hrow
  obtain ⟨s, hs⟩ := hranked other hother
  rw [Place.Ordered, Place.before_iff hr hs, Place.before_iff hs hr, Place.before?_eq_true hr hs,
    Place.before?_eq_true hs hr]

namespace Orderly

variable {g : Grid}

theorem ranked_walls (h : g.Orderly) (hself : ∀ p ∈ g.noted, p.same p = true) :
    g.wallTable.Ranked := fun row hrow =>
  Place.exists_ranks (h.wallPlaces row hrow).1 (hself row.1 (List.mem_map_of_mem hrow))

/-- The document of a grid is read back as a grid that shows no difference and has that document. -/
theorem reload (h : g.Orderly) (hself : ∀ p ∈ g.noted, p.same p = true) {d : Json}
    (hd : g.document = .ok d) :
    ∃ again, ofJson d = .ok again ∧ g.Agrees again ∧ again.document = .ok d := by
  rw [document_eq] at hd
  obtain ⟨walls, hwalls, hd⟩ := exists_ok_of_bind hd
  obtain ⟨powerups, hpowerups, hd⟩ := exists_ok_of_bind hd
  cases hd
  have hranked := h.ranked_walls hself
  obtain ⟨hfindWalls, hlistWalls⟩ := Table.reload_spec h.walls hranked hwalls (tidy_bare g)
    (covered_walls h)
  obtain ⟨hfindPowerups, hlistPowerups⟩ := Table.reload_spec h.powerups h.ranked_powerups hpowerups
    (Loose.tidy_empty : g.bare.powerupTable.loose.Tidy) (covered_powerups g)
  refine ⟨g.reread walls powerups, ofJson_record h ?_ ?_, ⟨rfl, rfl, rfl, rfl, rfl, ?_, ?_⟩, ?_⟩
  · exact fun row hrow => (Table.inOrder_listed h.walls hranked hwalls).1.subset hrow
  · exact fun row hrow =>
      (Table.inOrder_listed h.powerups h.ranked_powerups hpowerups).1.subset hrow
  · exact hfindWalls
  · intro p
    rw [takePowerupAt_eq, takePowerupAt_eq]
    exact hfindPowerups p
  · rw [document_eq]
    show (do
      return (g.reread walls powerups).record (← (g.bare.wallTable.putAll walls).listed)
        (← (g.bare.powerupTable.putAll powerups).listed)) = _
    rw [hlistWalls, hlistPowerups]
    rfl

/-- A grid has a document just if the places under which its walls are noted can be sorted. -/
theorem document_spec (h : g.Orderly) (hself : ∀ p ∈ g.noted, p.same p = true) :
    (g.Sortable ∧ ∃ d, g.document = .ok d) ∨ (¬ g.Sortable ∧ g.document = .error .wrongType) := by
  have hranked := h.ranked_walls hself
  rw [sortable_iff hranked, document_eq]
  rcases Table.listed_spec h.walls hranked with ⟨walls, hwalls, hperm, horder⟩ | ⟨hfault, hnone⟩
  · obtain ⟨powerups, hpowerups, -⟩ :=
      Table.exists_listed h.powerups h.ranked_powerups h.sortable_powerups
    rw [hwalls, hpowerups]
    exact .inl ⟨Table.sortable_of_inOrder horder hperm, _, rfl⟩
  · rw [hfault]
    exact .inr ⟨hnone, rfl⟩

theorem sortable_of_numeric (h : g.Orderly) (hself : ∀ p ∈ g.noted, p.same p = true)
    (hnumeric : ∀ p ∈ g.noted, p.Numeric) : g.Sortable := by
  have hranked := h.ranked_walls hself
  rw [sortable_iff hranked]
  exact Grid.sortable_of_numeric h.walls hranked fun row hrow =>
    hnumeric row.1 (List.mem_map_of_mem hrow)

end Orderly

/-- A grid has a document, and what is read from that shows no difference and has the same document.
-/
def Reloads (g : Grid) : Prop :=
  ∃ d again, g.document = .ok d ∧ ofJson d = .ok again ∧ g.Agrees again ∧ again.document = .ok d

theorem Orderly.reloads {g : Grid} (h : g.Orderly) (hself : ∀ p ∈ g.noted, p.same p = true)
    (hsort : g.Sortable) : g.Reloads := by
  obtain ⟨-, d, hd⟩ := (h.document_spec hself).resolve_right fun hnone => hnone.1 hsort
  obtain ⟨again, hagain⟩ := h.reload hself hd
  exact ⟨d, again, hd, hagain⟩

/-- A new grid reloads whatever has been done to it. So does one that was read, provided that its
walls are noted under places that can be sorted, as places made of numbers can; else it has no
document. -/
theorem reloads_alterAll :
    (∀ (g : Grid), g.New → ∀ alterations, (g.alterAll alterations).Reloads) ∧
    ∀ (data : Json) (g : Grid), ofJson data = .ok g → (∀ p ∈ g.noted, p.same p = true) →
      ((∀ p ∈ g.noted, p.Numeric) → ∀ alterations, (g.alterAll alterations).Sortable) ∧
      ∀ alterations,
        ((g.alterAll alterations).Sortable → (g.alterAll alterations).Reloads) ∧
        (¬ (g.alterAll alterations).Sortable →
          (g.alterAll alterations).document = .error .wrongType) := by
  constructor
  · intro g hnew alterations
    have horderly := hnew.coherent_orderly.2.written (.alterAll g alterations)
    have hcell : ∀ p ∈ (g.alterAll alterations).noted, ∃ c, p = .cell c := fun p hp =>
      hnew.exists_cell_of_noted (noted_of_written (.alterAll g alterations) hp)
    have hself : ∀ p ∈ (g.alterAll alterations).noted, p.same p = true := by
      intro p hp
      obtain ⟨c, rfl⟩ := hcell p hp
      simp
    have hnumeric : ∀ p ∈ (g.alterAll alterations).noted, p.Numeric := by
      intro p hp
      obtain ⟨c, rfl⟩ := hcell p hp
      simp [Place.Numeric, Place.values, Quantity.ofJson?]
    exact horderly.reloads hself (horderly.sortable_of_numeric hself hnumeric)
  · intro data g hread hself
    have hself (alterations : List Alteration) :
        ∀ p ∈ (g.alterAll alterations).noted, p.same p = true :=
      fun p hp => hself p (noted_of_written (.alterAll g alterations) hp)
    have horderly (alterations : List Alteration) : (g.alterAll alterations).Orderly :=
      (orderly_ofJson hread).written (.alterAll g alterations)
    refine ⟨fun hnumeric alterations => ?_, fun alterations => ⟨fun hsort => ?_, fun hnone => ?_⟩⟩
    · exact (horderly alterations).sortable_of_numeric (hself alterations) fun p hp =>
        hnumeric p (noted_of_written (.alterAll g alterations) hp)
    · exact (horderly alterations).reloads (hself alterations) hsort
    · exact (((horderly alterations).document_spec (hself alterations)).resolve_left
        fun hsort => hnone hsort.1).2

/-- A document of two cells that lists the walls of one, and of a place outside in an odd form. -/
def lopsided : Json := .object [("width", .whole 2), ("height", .bool true),
  ("walls", .list [
    .object [("cell", .list [.bool true, .whole 5]), ("sides", .list [])],
    .object [("cell", .list [.whole 0, .whole 0]), ("sides", .list [.text "east"])]]),
  ("powerups", .list [.object [("cell", .list [.bool false, .whole 0]), ("type", .text "phase")]])]

theorem noted_lopsided : ∃ g, ofJson lopsided = .ok g ∧
    g.noted = [.cell ⟨0, 0⟩, .cell ⟨1, 0⟩, .row [.bool true, .whole 5]] := ⟨_, rfl, rfl⟩

/-- A document of one cell that lists a place with a letter in it. -/
def lettered : Json := .object [("width", .whole 1), ("height", .whole 1),
  ("walls", .list [.object [("cell", .list [.text "a"]), ("sides", .list [])]])]

theorem noted_lettered : ∃ g, ofJson lettered = .ok g ∧
    g.noted = [.cell ⟨0, 0⟩, .row [.text "a"]] := ⟨_, rfl, rfl⟩

theorem not_sortable_lettered {g : Grid} (h : g.noted = [.cell ⟨0, 0⟩, .row [.text "a"]]) :
    ¬ g.Sortable := by
  rw [Sortable, h]
  intro hsort
  rcases (List.pairwise_cons.mp hsort).1 (.row [.text "a"]) (by simp) with hbefore | hbefore
  · cases hbefore
  · cases hbefore

/-- A closed square with an opened border, a grid read from a lopsided document and carved, and one
that cannot be sorted. -/
theorem reloads_alterAll_each :
    (make (.whole 2) (.whole 2) true = .ok (build 2 2 true) ∧
      ((build 2 2 true).alterAll [.wall [.whole 0, .whole 0] .south false,
        .exit [.whole 0, .whole 0], .lay [.whole 1, .bool true] .phase,
        .wall [.whole 7, .whole 0] .east true]).Reloads) ∧
    (∃ g, ofJson lopsided = .ok g ∧ (∀ p ∈ g.noted, p.same p = true) ∧
      (∀ p ∈ g.noted, p.Numeric) ∧
      (g.alterAll [.carve [.whole 0, .whole 0] [.whole 1, .whole 0],
        .wall [.bool true, .whole 5] .north true]).Reloads) ∧
    ∃ g, ofJson lettered = .ok g ∧ (∀ p ∈ g.noted, p.same p = true) ∧ ¬ g.Sortable ∧
      (g.alterAll []).document = .error .wrongType := by
  obtain ⟨hnew, hread⟩ := reloads_alterAll
  have hmade : make (.whole 2) (.whole 2) true = .ok (build 2 2 true) := rfl
  refine ⟨⟨hmade, hnew (build 2 2 true) (.made hmade) _⟩, ?_, ?_⟩
  · obtain ⟨g, hg, hnoted⟩ := noted_lopsided
    have hself : ∀ p ∈ g.noted, p.same p = true := by
      rw [hnoted]
      decide
    have hnumeric : ∀ p ∈ g.noted, p.Numeric := by
      rw [hnoted]
      simp [Place.Numeric, Place.values, Quantity.ofJson?]
    obtain ⟨hsort, hall⟩ := hread lopsided g hg hself
    exact ⟨g, hg, hself, hnumeric, (hall _).1 (hsort hnumeric _)⟩
  · obtain ⟨g, hg, hnoted⟩ := noted_lettered
    have hself : ∀ p ∈ g.noted, p.same p = true := by
      rw [hnoted]
      decide
    have hnone := not_sortable_lettered hnoted
    exact ⟨g, hg, hself, hnone, ((hread lettered g hg hself).2 []).2 hnone⟩

/-- A letter has no order with the numbers of the cells: the document is accepted, but the grid has
none. -/
theorem lettered_does_not_reload : ∃ g, ofJson lettered = .ok g ∧ ¬ g.Reloads := by
  refine ⟨_, rfl, ?_⟩
  rintro ⟨d, again, hd, -⟩
  cases hd

end Grid

end MazeDuel
