import MazeDuel.Grid.Alteration
import MazeDuel.Proofs.World.Edits
import MazeDuel.Proofs.World.Listings
/-!
Orderly grids: whatever has been noted on a grid is noted under places in the form in which a
document gives them, the cells in bounds as cells and each with its walls. Grids are orderly however
they came about, and stay so whatever is done to them: all that is ever done is a few kinds of
writes.
-/

namespace MazeDuel

namespace Place

/-- Whether a place is what its values are read as. -/
def Plain (p : Place) : Prop := ofValues p.values = p

theorem plain_cell (c : Cell) : (cell c).Plain := rfl

theorem values_ofValues (values : List Json) : (ofValues values).values = values := by
  unfold ofValues
  split <;> rfl

theorem plain_ofValues (values : List Json) : (ofValues values).Plain := by
  rw [Plain, values_ofValues]

theorem plain_ofJson {value : Json} {p : Place} (h : ofJson value = .ok p) : p.Plain := by
  unfold ofJson at h
  cases hparts : value.parts with
  | error fault =>
    rw [hparts] at h
    cases h
  | ok values =>
    rw [hparts] at h
    cases h
    exact plain_ofValues values

theorem plain_step {p next : Place} {side : Facing} (h : p.step side = .ok next) :
    next.Plain := by
  match p with
  | .cell c =>
    cases h
    exact plain_cell _
  | .row [] => cases h
  | .row (x :: rest) =>
    obtain ⟨x', -, h⟩ := exists_ok_of_bind h
    match rest with
    | [] => cases h
    | y :: _ =>
      obtain ⟨y', -, h⟩ := exists_ok_of_bind h
      cases h
      exact plain_ofValues [x', y']

end Place

namespace Grid

def wallTable (g : Grid) : Table Sides := ⟨g.walls, g.oddments.walls⟩

def powerupTable (g : Grid) : Table Powerup := ⟨g.powerups, g.oddments.powerups⟩

def withWalls (g : Grid) (t : Table Sides) : Grid :=
  { g with walls := t.cells, oddments := { g.oddments with walls := t.loose } }

def withPowerups (g : Grid) (t : Table Powerup) : Grid :=
  { g with powerups := t.cells, oddments := { g.oddments with powerups := t.loose } }

theorem putSides_eq (g : Grid) (p : Place) (sides : Sides) :
    g.putSides p sides = g.withWalls (g.wallTable.put p sides) := by
  unfold putSides Table.put withWalls
  cases p.cell? <;> rfl

theorem takePowerupAt_eq (g : Grid) (p : Place) : g.takePowerupAt p =
    (g.powerupTable.find? p, g.withPowerups (g.powerupTable.erase p)) := by
  unfold takePowerupAt Table.find? Table.erase withPowerups
  cases p.cell? <;> rfl

theorem placePowerupAt_eq {g : Grid} {p : Place} (h : g.contains p = .ok true) (kind : Powerup) :
    g.placePowerupAt p kind = .ok (g.withPowerups (g.powerupTable.put p kind)) := by
  unfold placePowerupAt Table.put withPowerups
  rw [h]
  cases p.cell? <;> rfl

theorem contains_of_placePowerupAt {g g' : Grid} {p : Place} {kind : Powerup}
    (h : g.placePowerupAt p kind = .ok g') : g.contains p = .ok true := by
  unfold placePowerupAt at h
  obtain ⟨inside, hin, h⟩ := exists_ok_of_bind h
  cases inside with
  | true => exact hin
  | false => cases h

theorem setExitAt_eq {g : Grid} {p : Place} (h : g.contains p = .ok true) :
    g.setExitAt p = .ok { g with exit := some p } := by
  cases p with
  | cell c => exact if_pos (Except.ok.inj h)
  | row values =>
    unfold setExitAt
    rw [h]
    rfl

theorem exit_of_setExitAt {g g' : Grid} {p : Place} (h : g.setExitAt p = .ok g') :
    g.contains p = .ok true ∧ g' = { g with exit := some p } := by
  have hin : g.contains p = .ok true := by
    cases p with
    | cell c =>
      by_contra hc
      have hc : ¬ g.inBounds c = true := fun hin => hc (congrArg Except.ok hin)
      cases (if_neg hc).symm.trans h
    | row values =>
      obtain ⟨inside, hin, h⟩ := exists_ok_of_bind h
      cases inside with
      | true => exact hin
      | false => cases h
  exact ⟨hin, Except.ok.inj (h.symm.trans (setExitAt_eq hin))⟩

/-- A wall is noted on a cell if walls are noted there at all. -/
theorem noteWall_eq (g : Grid) (c : Cell) (side : Facing) (up : Bool) :
    g.noteWall c side up = g ∨ ∃ sides new, g.sidesAt? (.cell c) = some sides ∧
      g.noteWall c side up = g.putSides (.cell c) new := by
  cases hc : g.walls[c]? with
  | some sides =>
    have hthere : g.walls.contains c = true := by
      rw [Std.TreeMap.contains_eq_isSome_getElem?, hc]
      rfl
    exact .inr ⟨sides, sides.set side up, hc, by simp [noteWall, putSides, hc, hthere]⟩
  | none => exact .inl (by simp [noteWall, hc])

/-- What is written on a grid at one stroke: other walls under a place where walls are noted, an
exit or a pickup on the grid, or that a pickup is gone. -/
inductive Write : Grid → Grid → Prop
  | walls {g : Grid} {p : Place} {sides : Sides} (hkey : p.isKey = true) (hplain : p.Plain)
    (hnoted : g.sidesAt? p = some sides) (new : Sides) : Write g (g.putSides p new)
  | exit {g : Grid} {p : Place} (hin : g.contains p = .ok true) (hplain : p.Plain) :
    Write g { g with exit := some p }
  | lay {g : Grid} {p : Place} (hin : g.contains p = .ok true) (hplain : p.Plain) (kind : Powerup) :
    Write g (g.withPowerups (g.powerupTable.put p kind))
  | take (g : Grid) (p : Place) : Write g (g.withPowerups (g.powerupTable.erase p))

/-- Whether one grid comes from another write by write. -/
abbrev Written : Grid → Grid → Prop := Relation.ReflTransGen Write

namespace Written

variable {g g' : Grid} {p : Place} {side : Facing} {up : Bool}

theorem noteWall (g : Grid) (c : Cell) (side : Facing) (up : Bool) :
    g.Written (g.noteWall c side up) := by
  rcases noteWall_eq g c side up with heq | ⟨sides, new, hnoted, heq⟩
  · rw [heq]
  · rw [heq]
    exact .single (.walls rfl (Place.plain_cell c) hnoted new)

theorem noteWallAt (hplain : p.Plain) (h : g.noteWallAt p side up = .ok g') : g.Written g' := by
  obtain ⟨sides, hsides, h⟩ := exists_ok_of_bind h
  obtain ⟨q, hq, hsides⟩ := exists_ok_of_bind hsides
  obtain ⟨rfl, hkey⟩ := Place.isKey_of_asKey hq
  cases h
  split at hsides
  · next hnoted => exact .single (.walls hkey hplain hnoted _)
  · cases hsides

theorem setWall {c : Cell} (h : g.setWall c side up = .ok g') : g.Written g' := by
  unfold Grid.setWall at h
  split at h
  · cases h
    split
    · exact (noteWall g c side up).trans (noteWall _ _ _ _)
    · exact noteWall g c side up
  · cases h

theorem setWallAt (hplain : p.Plain) (h : g.setWallAt p side up = .ok g') : g.Written g' := by
  cases p with
  | cell c => exact setWall h
  | row values =>
    obtain ⟨near, hnear, h⟩ := exists_ok_of_bind h
    obtain ⟨next, hnext, h⟩ := exists_ok_of_bind h
    obtain ⟨inside, -, h⟩ := exists_ok_of_bind h
    have hthere : g.Written near := noteWallAt hplain hnear
    split at h
    · exact hthere.trans (noteWallAt (Place.plain_step hnext) h)
    · cases h
      exact hthere

theorem carveAt {a b : Place} (hplain : a.Plain) (h : g.carveAt a b = .ok g') : g.Written g' := by
  unfold Grid.carveAt at h
  split at h
  · unfold carveBetween at h
    split at h
    · exact setWall h
    · cases h
  · obtain ⟨side, -, h⟩ := exists_ok_of_bind h
    split at h
    · exact setWallAt hplain h
    · cases h

theorem setExitAt (hplain : p.Plain) (h : g.setExitAt p = .ok g') : g.Written g' := by
  obtain ⟨hin, rfl⟩ := exit_of_setExitAt h
  exact .single (.exit hin hplain)

theorem placePowerupAt (hplain : p.Plain) {kind : Powerup} (h : g.placePowerupAt p kind = .ok g') :
    g.Written g' := by
  have hin := contains_of_placePowerupAt h
  rw [placePowerupAt_eq hin] at h
  cases h
  exact .single (.lay hin hplain kind)

theorem takePowerupAt (g : Grid) (p : Place) : g.Written (g.takePowerupAt p).2 := by
  rw [takePowerupAt_eq]
  exact .single (.take g p)

theorem noteNear (g : Grid) (hplain : p.Plain) (side : Facing) (up : Bool) :
    g.Written (g.noteNear p side up) := by
  unfold Grid.noteNear
  cases h : g.noteWallAt p side up with
  | ok g' => exact noteWallAt hplain h
  | error fault => exact .refl

theorem leftover (g : Grid) (a : Alteration) : g.Written (g.leftover a) := by
  cases a with
  | wall values side up => exact noteNear g (Place.plain_ofValues values) side up
  | carve a b =>
    unfold Grid.leftover
    dsimp only
    split
    · exact noteNear g (Place.plain_ofValues a) _ _
    · exact .refl
  | exit values => exact .refl
  | lay values kind => exact .refl
  | take values => exact .refl

/-- An alteration is made of writes, whether it is made or fails. -/
theorem alter (g : Grid) (a : Alteration) : g.Written (g.alter a) := by
  unfold Grid.alter
  cases hmade : g.altered a with
  | error fault => exact leftover g a
  | ok g' =>
    cases a with
    | wall values side up => exact setWallAt (Place.plain_ofValues values) hmade
    | carve a b => exact carveAt (Place.plain_ofValues a) hmade
    | exit values => exact setExitAt (Place.plain_ofValues values) hmade
    | lay values kind => exact placePowerupAt (Place.plain_ofValues values) hmade
    | take values =>
      obtain ⟨p, -, hmade⟩ := exists_ok_of_bind hmade
      cases hmade
      exact takePowerupAt g p

theorem alterAll (g : Grid) (alterations : List Alteration) :
    g.Written (g.alterAll alterations) := by
  induction alterations generalizing g with
  | nil => exact .refl
  | cons a alterations ih => exact (alter g a).trans (ih (g.alter a))

end Written

/-- What holds of all grids: they have cells; what is noted on them is noted under places that can
be noted and are in plain form; the walls of every cell in bounds are noted, under the cell itself;
the exit and all pickups lie on the grid. -/
structure Orderly (g : Grid) : Prop where
  width : 1 ≤ g.width
  height : 1 ≤ g.height
  widthFlag : g.oddments.widthIsFlag = true → g.width = 1
  heightFlag : g.oddments.heightIsFlag = true → g.height = 1
  walls : g.wallTable.loose.Tidy
  cells : ∀ c, g.inBounds c = true →
    g.wallTable.cells.contains c = true ∧ g.wallTable.loose.form c = .cell c
  wallPlaces : ∀ row ∈ g.wallTable.rows, row.1.isKey = true ∧ row.1.Plain
  exit : ∀ p, g.exit = some p → g.contains p = .ok true ∧ p.Plain
  powerups : g.powerupTable.loose.Tidy
  powerupPlaces : ∀ row ∈ g.powerupTable.rows, g.contains row.1 = .ok true ∧ row.1.Plain

namespace Orderly

variable {g g' : Grid} {p : Place}

theorem putSides (h : g.Orderly) (hkey : p.isKey = true) (hplain : p.Plain) (sides : Sides) :
    (g.putSides p sides).Orderly := by
  rw [putSides_eq]
  refine { h with walls := Table.tidy_put h.walls p sides, cells := fun c hc => ?_,
                  wallPlaces := fun row hrow => ?_ }
  · obtain ⟨hnoted, hform⟩ := h.cells c hc
    exact ⟨Table.contains_put hnoted p sides, (Table.form_put hnoted p sides).trans hform⟩
  · rcases Table.place_of_mem_put hrow with ⟨hplace, -⟩ | ⟨old, hold, hplace⟩
    · rw [hplace]
      exact ⟨hkey, hplain⟩
    · rw [← hplace]
      exact h.wallPlaces old hold

theorem write (h : g.Orderly) (hwrite : g.Write g') : g'.Orderly := by
  cases hwrite with
  | walls hkey hplain _ new => exact h.putSides hkey hplain new
  | exit hin hplain =>
    exact { h with exit := fun q hq => Option.some.inj hq ▸ ⟨hin, hplain⟩ }
  | @lay p hin hplain kind =>
    refine { h with powerups := Table.tidy_put h.powerups p kind
                    powerupPlaces := fun row hrow => ?_ }
    rcases Table.place_of_mem_put hrow with ⟨heq, -⟩ | ⟨old, hold, heq⟩
    · rw [heq]
      exact ⟨hin, hplain⟩
    · rw [← heq]
      exact h.powerupPlaces old hold
  | take p =>
    exact { h with
      powerups := Table.tidy_erase h.powerups p
      powerupPlaces := fun row hrow => h.powerupPlaces row (Table.mem_rows_of_mem_erase hrow) }

/-- Whatever is written on an orderly grid leaves it orderly. -/
theorem written (h : g.Orderly) (hwritten : g.Written g') : g'.Orderly := by
  induction hwritten with
  | refl => exact h
  | tail _ hwrite ih => exact ih.write hwrite

end Orderly

/-- The places under which the walls of a grid are noted. -/
def noted (g : Grid) : List Place := g.wallTable.rows.map Prod.fst

theorem noted_of_write {g g' : Grid} (h : g.Write g') {p : Place} (hp : p ∈ g'.noted) :
    p ∈ g.noted := by
  cases h with
  | walls _ _ hnoted new =>
    rw [putSides_eq] at hp
    obtain ⟨row, hrow, rfl⟩ := List.mem_map.mp hp
    rcases Table.place_of_mem_put hrow with ⟨-, hnone⟩ | ⟨old, hold, heq⟩
    · cases hnoted.symm.trans hnone
    · exact List.mem_map.mpr ⟨old, hold, heq⟩
  | exit _ _ => exact hp
  | lay _ _ _ => exact hp
  | take _ => exact hp

/-- Nothing that is written brings walls where none were noted. -/
theorem noted_of_written {g g' : Grid} (h : g.Written g') {p : Place} (hp : p ∈ g'.noted) :
    p ∈ g.noted := by
  induction h with
  | refl => exact hp
  | tail _ hwrite ih => exact ih (noted_of_write hwrite hp)

theorem Coherent.orderly {g : Grid} (h : g.Coherent) (hwidth : 1 ≤ g.width) (hheight : 1 ≤ g.height)
    (hwidthFlag : g.oddments.widthIsFlag = true → g.width = 1)
    (hheightFlag : g.oddments.heightIsFlag = true → g.height = 1) : g.Orderly := by
  have hwalls : g.wallTable.loose = {} := h.noLooseWalls
  have hpowerups : g.powerupTable.loose = {} := h.noLoosePowerups
  refine ⟨hwidth, hheight, hwidthFlag, hheightFlag, hwalls ▸ Loose.tidy_empty, fun c hc => ?_,
    fun row hrow => ?_, fun p hp => ?_, hpowerups ▸ Loose.tidy_empty, fun row hrow => ?_⟩
  · exact ⟨(h.charted c).trans hc, by rw [hwalls]; rfl⟩
  · obtain ⟨c, -, hplace⟩ := Table.exists_cell_of_mem_rows hwalls hrow
    rw [hplace]
    exact ⟨rfl, rfl⟩
  · obtain ⟨c, rfl, hc⟩ := h.exit p hp
    exact ⟨congrArg Except.ok hc, rfl⟩
  · obtain ⟨c, hc, hplace⟩ := Table.exists_cell_of_mem_rows hpowerups hrow
    have hin : g.inBounds c = true := by
      apply h.powerups
      rw [Std.TreeMap.contains_eq_isSome_getElem?, Option.isSome_iff_exists]
      exact ⟨row.2, hc⟩
    rw [hplace]
    exact ⟨congrArg Except.ok hin, rfl⟩

end Grid

end MazeDuel
