import Mathlib.Data.Set.Card
import MazeDuel.Maze
import MazeDuel.Proofs.World.Passages
/-!
Carving: whatever the generator chooses, the depth-first walk comes back to where it set out and has
then carved a perfect maze. One invariant ties the path, the visited cells and the passages
together; every round of the walk keeps it and brings the walk nearer to its end.
-/

namespace MazeDuel.Maze

open MazeDuel.Random (Chooser)

/-- A walk under way: what it has carved, where it has been, and the way back. -/
structure Walker where
  grid : Grid
  visited : Std.TreeSet Cell
  path : List Cell

def fresh (grid : Grid) (visited : Std.TreeSet Cell) (c : Cell) : List Cell :=
  (grid.neighbors c).filter fun cell => !visited.contains cell

/-- One round, with whatever choice among the fresh neighbours. -/
inductive Round : Walker → Walker → Prop
  | back (grid : Grid) (visited : Std.TreeSet Cell) (current : Cell) (path : List Cell)
      (hstuck : fresh grid visited current = []) :
      Round ⟨grid, visited, current :: path⟩ ⟨grid, visited, path⟩
  | on (grid : Grid) (visited : Std.TreeSet Cell) (current : Cell) (path : List Cell) (next : Cell)
      (carved : Grid) (hnext : next ∈ fresh grid visited current)
      (hcarve : grid.carveBetween current next = .ok carved) :
      Round ⟨grid, visited, current :: path⟩
        ⟨carved, visited.insert next, next :: current :: path⟩

theorem pick_mem {G : Type} (c : Chooser G) (g : G) (head : Cell) (tail : List Cell) :
    (c.pick g head tail).1 ∈ head :: tail :=
  List.getElem_mem _

theorem mem_fresh {grid : Grid} {visited : Std.TreeSet Cell} {c next : Cell} :
    next ∈ fresh grid visited c ↔
      (∃ side : Facing, side.step c = next) ∧ grid.inBounds next = true ∧
        visited.contains next = false := by
  simp only [fresh, Grid.neighbors, List.mem_filter, List.mem_map, Bool.not_eq_true']
  constructor
  · rintro ⟨⟨⟨side, -, hstep⟩, hin⟩, hnew⟩
    exact ⟨⟨side, hstep⟩, hin, hnew⟩
  · rintro ⟨⟨side, hstep⟩, hin, hnew⟩
    exact ⟨⟨⟨side, side.mem_all, hstep⟩, hin⟩, hnew⟩

theorem contains_insert (visited : Std.TreeSet Cell) (next c : Cell) :
    (visited.insert next).contains c = true ↔ c = next ∨ visited.contains c = true := by
  have hinsert : (visited.insert next).contains c = (compare next c == .eq || visited.contains c) :=
    Std.TreeSet.contains_insert
  rw [hinsert, Bool.or_eq_true, beq_iff_eq, Std.compare_eq_iff_eq]
  constructor
  · exact Or.imp_left Eq.symm
  · exact Or.imp_left Eq.symm

/-- The sites among the visited cells. -/
def seen (width height : Nat) (visited : Std.TreeSet Cell) : Set (Site width height) :=
  {s | visited.contains s.cell = true}

theorem seen_insert {width height : Nat} (visited : Std.TreeSet Cell) (t : Site width height) :
    seen width height (visited.insert t.cell) = insert t (seen width height visited) := by
  ext s
  simp only [seen, Set.mem_ofPred_eq, contains_insert, Set.mem_insert_iff, Site.cell_inj]

theorem ncard_seen_insert {width height : Nat} {visited : Std.TreeSet Cell} {t : Site width height}
    (hnew : visited.contains t.cell = false) :
    (seen width height (visited.insert t.cell)).ncard = (seen width height visited).ncard + 1 := by
  have hnot : t ∉ seen width height visited :=
    fun hmem => Bool.false_ne_true (hnew.symm.trans hmem)
  rw [seen_insert, Set.ncard_insert_of_notMem hnot]

theorem ncard_seen_le (width height : Nat) (visited : Std.TreeSet Cell) :
    (seen width height visited).ncard ≤ width * height := by
  have hle := Set.ncard_le_card (seen width height visited)
  simpa using hle

variable {width height : Nat} {start : Site width height}

/-- What holds of a walk from `start` all the way. The passages are a tree on the visited cells:
they join all of them, and there is one less. -/
structure Sound (start : Site width height) (grid : Grid) (visited : Std.TreeSet Cell)
    (path : List Cell) : Prop where
  width_eq : grid.width = width
  height_eq : grid.height = height
  charted : grid.Charted
  agree : ∀ c side, grid.inBounds c = true → grid.inBounds (side.step c) = true →
    grid.hasWall c side = grid.hasWall (side.step c) side.opposite
  border : ∀ c side, grid.inBounds c = true → grid.inBounds (side.step c) = false →
    grid.hasWall c side = true
  closed : ∀ c side, visited.contains c = false → grid.hasWall c side = true
  inside : ∀ c, visited.contains c = true → grid.inBounds c = true
  onPath : ∀ c ∈ path, visited.contains c = true
  settled : ∀ c, visited.contains c = true → c ∉ path → fresh grid visited c = []
  started : start ∈ seen width height visited
  joined : ∀ s ∈ seen width height visited, (grid.passages width height).Reachable start s
  counted : (grid.passages width height).edgeSet.ncard + 1 = (seen width height visited).ncard

variable {grid carved : Grid} {visited : Std.TreeSet Cell} {current next : Cell} {path : List Cell}

theorem Sound.back (h : Sound start grid visited (current :: path))
    (hstuck : fresh grid visited current = []) : Sound start grid visited path := by
  refine { h with onPath := ?_, settled := ?_ }
  · intro c hc
    exact h.onPath c (List.mem_cons_of_mem current hc)
  · intro c hc hpath
    by_cases hcurrent : c = current
    · rw [hcurrent]
      exact hstuck
    · apply h.settled c hc
      intro hmem
      cases hmem with
      | head => exact hcurrent rfl
      | tail _ hmem => exact hpath hmem

/-- A cell without fresh neighbours has none later on. -/
theorem fresh_insert {c : Cell} {walls : Std.TreeMap Cell Sides} (h : fresh grid visited c = []) :
    fresh { grid with walls := walls } (visited.insert next) c = [] := by
  apply List.eq_nil_iff_forall_not_mem.mpr
  intro d hd
  obtain ⟨hstep, hin, hnew⟩ := mem_fresh.mp hd
  have hold : visited.contains d = false := by
    apply Bool.eq_false_iff.mpr
    intro hmem
    have hmem' := (contains_insert visited next d).mpr (.inr hmem)
    exact Bool.false_ne_true (hnew.symm.trans hmem')
  have hfresh : d ∈ fresh grid visited c := mem_fresh.mpr ⟨hstep, hin, hold⟩
  rw [h] at hfresh
  cases hfresh

theorem Sound.on (h : Sound start grid visited (current :: path))
    (hnext : next ∈ fresh grid visited current)
    (hcarve : grid.carveBetween current next = .ok carved) :
    Sound start carved (visited.insert next) (next :: current :: path) := by
  obtain ⟨⟨side, rfl⟩, hin, hnew⟩ := mem_fresh.mp hnext
  have hseen : visited.contains current = true := h.onPath current List.mem_cons_self
  have hcurrent : grid.inBounds current = true := h.inside current hseen
  obtain ⟨walls, hwalls, hcharted, hhas⟩ := Grid.exists_removeWall h.charted hcurrent side
  rw [Grid.carveBetween_step, hwalls] at hcarve
  cases hcarve
  obtain ⟨s, rfl⟩ := Site.exists_of_inBounds h.width_eq h.height_eq hcurrent
  obtain ⟨t, ht⟩ := Site.exists_of_inBounds h.width_eq h.height_eq hin
  have hpassages := Grid.passages_opened h.width_eq h.height_eq ht.symm hhas
  have hst : s ≠ t := by
    rintro rfl
    exact Facing.step_ne side s.cell ht.symm
  rw [← ht] at hnew ⊢
  constructor
  case width_eq => exact h.width_eq
  case height_eq => exact h.height_eq
  case charted => exact hcharted
  case agree =>
    intro c d hc hd
    rw [hhas c d hc, hhas (d.step c) d.opposite hd, h.agree c d hc hd]
    simp only [Facing.same_edge]
  case border =>
    intro c d hc hd
    have hother : ¬ ((c = s.cell ∧ d = side) ∨ (c = side.step s.cell ∧ d = side.opposite)) := by
      rintro (⟨rfl, rfl⟩ | ⟨rfl, rfl⟩)
      · exact Bool.false_ne_true (hd.symm.trans hin)
      · rw [Facing.step_opposite] at hd
        exact Bool.false_ne_true (hd.symm.trans hcurrent)
    rw [hhas c d hc, if_neg hother]
    exact h.border c d hc hd
  case closed =>
    intro c d hc
    have hne : ¬ (c = t.cell ∨ visited.contains c = true) := by
      rw [← contains_insert, hc]
      exact Bool.false_ne_true
    have hold : visited.contains c = false := Bool.eq_false_iff.mpr (not_or.mp hne).2
    by_cases hinside : grid.inBounds c = true
    · have hother : ¬ ((c = s.cell ∧ d = side) ∨ (c = side.step s.cell ∧ d = side.opposite)) := by
        rintro (⟨rfl, -⟩ | ⟨rfl, -⟩)
        · exact Bool.false_ne_true (hold.symm.trans hseen)
        · exact hne (.inl ht.symm)
      rw [hhas c d hinside, if_neg hother]
      exact h.closed c d hold
    · exact hcharted.hasWall_outside (Bool.eq_false_iff.mpr hinside) d
  case inside =>
    intro c hc
    rcases (contains_insert _ _ _).mp hc with rfl | hc
    · rw [ht]
      exact hin
    · exact h.inside c hc
  case onPath =>
    intro c hc
    apply (contains_insert _ _ _).mpr
    cases hc with
    | head => exact .inl rfl
    | tail _ hc => exact .inr (h.onPath c hc)
  case settled =>
    intro c hc hpath
    obtain ⟨hne, hrest⟩ := not_or.mp (List.mem_cons.not.mp hpath)
    rcases (contains_insert _ _ _).mp hc with rfl | hc
    · exact absurd rfl hne
    · exact fresh_insert (h.settled c hc hrest)
  case started => exact (contains_insert _ _ _).mpr (.inr h.started)
  case joined =>
    intro a ha
    rw [seen_insert] at ha
    rw [hpassages]
    have hold : ∀ b ∈ seen width height visited,
        (grid.passages width height ⊔ SimpleGraph.edge s t).Reachable start b :=
      fun b hb => (h.joined b hb).mono le_sup_left
    rcases ha with rfl | ha
    · have hedge : (SimpleGraph.edge s a).Adj s a :=
        (SimpleGraph.edge_adj s a s a).mpr ⟨.inl ⟨rfl, rfl⟩, hst⟩
      have hadj : (grid.passages width height ⊔ SimpleGraph.edge s a).Adj s a := .inr hedge
      exact (hold s hseen).trans hadj.reachable
    · exact hold a ha
  case counted =>
    have hwall : s(s, t) ∉ (grid.passages width height).edgeSet := by
      rintro ⟨d, -, -, hfar⟩
      rw [h.closed t.cell d.opposite hnew] at hfar
      cases hfar
    rw [ncard_seen_insert hnew, hpassages, SimpleGraph.edgeSet_sup,
      SimpleGraph.edgeSet_edge_of_ne hst, Set.union_singleton, Set.ncard_insert_of_notMem hwall,
      ← h.counted]

theorem contains_start (start c : Cell) :
    (Std.TreeSet.empty.insert start : Std.TreeSet Cell).contains c = true ↔ c = start := by
  have hnone : (Std.TreeSet.empty : Std.TreeSet Cell).contains c = false :=
    Std.TreeSet.contains_emptyc
  rw [contains_insert, hnone]
  simp

theorem sound_start (start : Site width height) :
    Sound start (Grid.build width height true) (Std.TreeSet.empty.insert start.cell)
      [start.cell] := by
  have hwalls := Grid.hasWall_build_closed width height
  have hseen : seen width height (Std.TreeSet.empty.insert start.cell) = {start} := by
    ext s
    exact (contains_start start.cell s.cell).trans Site.cell_inj
  constructor
  case width_eq => rfl
  case height_eq => rfl
  case charted => exact Grid.charted_build width height true
  case agree =>
    intro c side _ _
    rw [hwalls, hwalls]
  case border => exact fun c side _ _ => hwalls c side
  case closed => exact fun c side _ => hwalls c side
  case inside =>
    intro c hc
    rw [(contains_start _ _).mp hc]
    have hin : ∀ s : Site width height, (Grid.build width height true).inBounds s.cell = true :=
      Site.inBounds_cell rfl rfl
    exact hin start
  case onPath =>
    intro c hc
    rw [List.mem_singleton.mp hc]
    exact (contains_insert _ _ _).mpr (.inl rfl)
  case settled =>
    intro c hc hpath
    exact absurd (List.mem_singleton.mpr ((contains_start _ _).mp hc)) hpath
  case started => exact (contains_insert _ _ _).mpr (.inl rfl)
  case joined =>
    intro s hs
    rw [Site.cell_injective ((contains_start _ _).mp hs)]
  case counted =>
    have hnone : ((Grid.build width height true).passages width height).edgeSet = ∅ := by
      rw [SimpleGraph.edgeSet_eq_empty]
      ext s t
      constructor
      · rintro ⟨side, -, hnear, -⟩
        rw [hwalls] at hnear
        cases hnear
      · exact False.elim
    rw [hnone, hseen, Set.ncard_empty, Set.ncard_singleton]

theorem Sound.exists_carved (h : Sound start grid visited (current :: path))
    (hnext : next ∈ fresh grid visited current) :
    ∃ carved, grid.carveBetween current next = .ok carved := by
  obtain ⟨⟨side, rfl⟩, -, -⟩ := mem_fresh.mp hnext
  have hcurrent := h.inside current (h.onPath current List.mem_cons_self)
  obtain ⟨walls, hwalls, -, -⟩ := Grid.exists_removeWall h.charted hcurrent side
  rw [Grid.carveBetween_step]
  exact ⟨_, hwalls⟩

/-- A step on visits one more cell. -/
theorem Sound.ncard_on (h : Sound start grid visited (current :: path))
    (hnext : next ∈ fresh grid visited current) :
    (seen width height (visited.insert next)).ncard = (seen width height visited).ncard + 1 := by
  obtain ⟨-, hin, hnew⟩ := mem_fresh.mp hnext
  obtain ⟨t, rfl⟩ := Site.exists_of_inBounds h.width_eq h.height_eq hin
  exact ncard_seen_insert hnew

/-- With fuel for every step on and back that is still to come, the walk ends where it began. -/
theorem carveLoop_returns {G : Type} (c : Chooser G) (fuel : Nat) (g : G)
    (h : Sound start grid visited path)
    (hfuel : path.length + 2 * (width * height - (seen width height visited).ncard) ≤ fuel) :
    ∃ maze visited', (carveLoop c fuel grid visited path g).1 = .ok maze ∧
      Relation.ReflTransGen Round ⟨grid, visited, path⟩ ⟨maze, visited', []⟩ ∧
      Sound start maze visited' [] := by
  induction fuel generalizing grid visited path g with
  | zero =>
    have hpath : path = [] := List.eq_nil_of_length_eq_zero (by omega)
    subst hpath
    exact ⟨grid, visited, rfl, .refl, h⟩
  | succ fuel ih =>
    cases path with
    | nil => exact ⟨grid, visited, rfl, .refl, h⟩
    | cons current path =>
      cases hfresh : fresh grid visited current with
      | nil =>
        have hloop : carveLoop c (fuel + 1) grid visited (current :: path) g =
            carveLoop c fuel grid visited path g := by
          unfold fresh at hfresh
          rw [carveLoop, hfresh]
        have hrest : path.length + 2 * (width * height - (seen width height visited).ncard) ≤
            fuel := by
          rw [List.length_cons] at hfuel
          omega
        obtain ⟨maze, visited', hmaze, hrounds, hsound⟩ := ih g (h.back hfresh) hrest
        rw [hloop]
        have hround := Round.back grid visited current path hfresh
        exact ⟨maze, visited', hmaze, .head hround hrounds, hsound⟩
      | cons head tail =>
        let next := (c.pick g head tail).1
        have hnext : next ∈ fresh grid visited current := by
          rw [hfresh]
          exact pick_mem c g head tail
        obtain ⟨carved, hcarve⟩ := h.exists_carved hnext
        have hloop : carveLoop c (fuel + 1) grid visited (current :: path) g =
            carveLoop c fuel carved (visited.insert next) (next :: current :: path)
              (c.pick g head tail).2 := by
          unfold fresh at hfresh
          rw [carveLoop, hfresh]
          dsimp only
          rw [hcarve]
        have hrest : (next :: current :: path).length +
            2 * (width * height - (seen width height (visited.insert next)).ncard) ≤ fuel := by
          have hmore := h.ncard_on hnext
          have hle := ncard_seen_le width height (visited.insert next)
          simp only [List.length_cons] at hfuel ⊢
          omega
        obtain ⟨maze, visited', hmaze, hrounds, hsound⟩ :=
          ih (c.pick g head tail).2 (h.on hnext hcarve) hrest
        have hround := Round.on grid visited current path next carved hnext hcarve
        rw [hloop]
        exact ⟨maze, visited', hmaze, .head hround hrounds, hsound⟩

/-- At the end every cell is visited: the start is, and so are the neighbours of what is. -/
theorem Sound.all_seen (h : Sound start grid visited []) (s : Site width height) :
    s ∈ seen width height visited := by
  apply Site.induct start h.started
  intro a b ha hadj
  obtain ⟨side, hstep⟩ := Site.lattice_adj.mp hadj
  have hnone := h.settled a.cell ha (List.not_mem_nil)
  have hin := Site.inBounds_cell h.width_eq h.height_eq b
  by_contra hb
  have hfresh : b.cell ∈ fresh grid visited a.cell :=
    mem_fresh.mpr ⟨⟨side, hstep⟩, hin, Bool.eq_false_iff.mpr hb⟩
  rw [hnone] at hfresh
  cases hfresh

theorem Sound.isTree (h : Sound start grid visited []) :
    (grid.passages width height).IsTree := by
  have hall : seen width height visited = Set.univ := Set.eq_univ_of_forall h.all_seen
  rw [SimpleGraph.isTree_iff_connected_and_card]
  constructor
  · have hpre : (grid.passages width height).Preconnected := by
      intro s t
      exact (h.joined s (h.all_seen s)).symm.trans (h.joined t (h.all_seen t))
    exact SimpleGraph.connected_iff_exists_forall_reachable _ |>.mpr ⟨start, hpre start⟩
  · have hcount := h.counted
    rw [hall, Set.ncard_univ] at hcount
    exact hcount

theorem Sound.perfect (h : Sound start grid visited []) : grid.Perfect := by
  have htree := h.isTree
  have hcount := h.counted
  have hall : seen width height visited = Set.univ := Set.eq_univ_of_forall h.all_seen
  rw [hall, Set.ncard_univ] at hcount
  obtain ⟨rfl, rfl⟩ := And.intro h.width_eq h.height_eq
  constructor
  case spanning => exact grid.passages_le_lattice grid.width grid.height
  case edges =>
    have hsites : Nat.card (Site grid.width grid.height) = grid.width * grid.height := by simp
    omega
  case connected => exact htree.connected
  case path => exact htree.existsUnique_path
  case agree => exact h.agree
  case border => exact h.border

theorem carve_returns {G : Type} (c : Chooser G) (g : G) (start : Site width height) :
    ∃ maze visited, (carve c (Grid.build width height true) start.cell g).1 = .ok maze ∧
      Relation.ReflTransGen Round
        ⟨Grid.build width height true, Std.TreeSet.empty.insert start.cell, [start.cell]⟩
        ⟨maze, visited, []⟩ ∧ Sound start maze visited [] := by
  apply carveLoop_returns c (2 * (width * height) + 2) g (sound_start start)
  rw [List.length_singleton]
  omega

/-- However the generator chooses, the walk ends and has carved a perfect maze. -/
theorem carve_perfect {G : Type} (c : Chooser G) (g : G) (width height : Nat) (start : Cell)
    (hstart : (Grid.build width height true).inBounds start = true) :
    ∃ maze visited, (carve c (Grid.build width height true) start g).1 = .ok maze ∧
      Relation.ReflTransGen Round
        ⟨Grid.build width height true, Std.TreeSet.empty.insert start, [start]⟩
        ⟨maze, visited, []⟩ ∧
      maze.width = width ∧ maze.height = height ∧ maze.Perfect := by
  obtain ⟨site, rfl⟩ : ∃ site : Site width height, site.cell = start :=
    Site.exists_of_inBounds rfl rfl hstart
  obtain ⟨maze, visited, hmaze, hrounds, hsound⟩ := carve_returns c g site
  exact ⟨maze, visited, hmaze, hrounds, hsound.width_eq, hsound.height_eq, hsound.perfect⟩

/-- A generator that always names the same number, if the bound allows it. -/
def always (choice : Nat) : Chooser Unit := ⟨fun _ n h => (⟨choice % n, Nat.mod_lt _ h⟩, ())⟩

theorem carve_always : (Grid.build 3 2 true).inBounds ⟨1, 1⟩ = true ∧
    ∃ maze visited, (carve (always 1) (Grid.build 3 2 true) ⟨1, 1⟩ ()).1 = .ok maze ∧
      Relation.ReflTransGen Round
        ⟨Grid.build 3 2 true, Std.TreeSet.empty.insert ⟨1, 1⟩, [⟨1, 1⟩]⟩ ⟨maze, visited, []⟩ ∧
      maze.width = 3 ∧ maze.height = 2 ∧ maze.Perfect := by
  have hstart : (Grid.build 3 2 true).inBounds ⟨1, 1⟩ = true := by decide
  exact ⟨hstart, carve_perfect (always 1) () 3 2 ⟨1, 1⟩ hstart⟩

end MazeDuel.Maze
