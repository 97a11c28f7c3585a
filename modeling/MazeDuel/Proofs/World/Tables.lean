import MazeDuel.Proofs.World.Ranks
/-!
Tables: what is noted under places, be they cells or not. A row of a table is a place, in the form
in which it was first given, with what is noted under it; no two rows are of equal places. Noting
something more replaces the row of that place or adds one.
-/

namespace MazeDuel

/-! ## Loose entries -/

namespace Loose

variable {α : Type} {t : Loose α} {p : Place} {a : α}

theorem entries_setForm (t : Loose α) (c : Cell) (p : Place) :
    (t.setForm c p).entries = t.entries := by
  cases p <;> rfl

theorem form_setForm (t : Loose α) {c : Cell} (h : p.cell? = some c) (d : Cell) :
    (t.setForm c p).form d = if d = c then p else t.form d := by
  have hothers (hd : d ≠ c) :
      (t.forms.filter (·.1 != c)).find? (·.1 == d) = t.forms.find? (·.1 == d) := by
    rw [List.find?_filter]
    congr 1
    funext entry
    by_cases hentry : entry.1 = d
    · simp [hentry, hd]
    · simp [hentry]
  cases p with
  | cell d' =>
    obtain rfl : d' = c := Option.some.inj h
    by_cases hd : d = d'
    · subst hd
      have hnone : (t.forms.filter (·.1 != d)).find? (·.1 == d) = none := by
        simp [List.find?_filter]
      simp [setForm, form, hnone]
    · simp [setForm, form, hothers hd, hd]
  | row values =>
    by_cases hd : d = c
    · simp [setForm, form, hd]
    · have hd' : ¬ c = d := fun e => hd e.symm
      simp [setForm, form, hothers hd, hd, hd']

/-- What is noted after an insertion, where an equal place is the place itself. -/
theorem mem_insert (hform : ∀ row ∈ t.entries, row.1.same p = true → row.1 = p)
    {row : Place × α} :
    row ∈ (t.insert p a).entries ↔ row = (p, a) ∨ row ∈ t.entries ∧ row.1.same p = false := by
  unfold insert
  by_cases hany : t.entries.any (·.1.same p) = true
  · rw [if_pos hany, List.mem_map]
    obtain ⟨old, hold, hsame⟩ := List.any_eq_true.mp hany
    constructor
    · rintro ⟨row, hrow, rfl⟩
      cases h : row.1.same p with
      | true => exact .inl (by simp [hform row hrow h])
      | false => exact .inr ⟨hrow, h⟩
    · rintro (rfl | ⟨hrow, h⟩)
      · exact ⟨old, hold, by rw [if_pos hsame, hform old hold hsame]⟩
      · exact ⟨row, hrow, by simp [h]⟩
  · rw [if_neg hany, List.mem_append, List.mem_singleton, or_comm]
    have hnone : ∀ row ∈ t.entries, row.1.same p = false := by simpa using hany
    simp only [and_iff_left_of_imp (hnone row)]

/-- An insertion leaves the places as they are, or adds a new one. -/
theorem map_insert (t : Loose α) (p : Place) (a : α) :
    (t.insert p a).entries.map Prod.fst = t.entries.map Prod.fst ∨
      (∀ row ∈ t.entries, row.1.same p = false) ∧
        (t.insert p a).entries.map Prod.fst = t.entries.map Prod.fst ++ [p] := by
  unfold insert
  by_cases hany : t.entries.any (·.1.same p) = true
  · refine .inl ?_
    rw [if_pos hany, List.map_map]
    refine List.map_congr_left fun row _ => ?_
    simp only [Function.comp_apply]
    split <;> rfl
  · refine .inr ⟨by simpa using hany, ?_⟩
    rw [if_neg hany, List.map_append]
    rfl

/-- The forms of cells are forms of them, and what is noted loosely is noted apart from the cells
and once only. -/
structure Tidy (t : Loose α) : Prop where
  forms : ∀ c, (t.form c).cell? = some c
  places : ∀ p ∈ t.entries.map Prod.fst, p.cell? = none
  apart : (t.entries.map Prod.fst).Pairwise fun p q => p.same q = false

theorem tidy_empty : ({} : Loose α).Tidy where
  forms _ := rfl
  places _ hp := nomatch hp
  apart := .nil

theorem Tidy.setForm (h : t.Tidy) {c : Cell} (hp : p.cell? = some c) : (t.setForm c p).Tidy where
  forms d := by
    rw [form_setForm t hp]
    split
    · subst_vars
      exact hp
    · exact h.forms d
  places := by
    rw [entries_setForm]
    exact h.places
  apart := by
    rw [entries_setForm]
    exact h.apart

theorem form_insert (t : Loose α) (p : Place) (a : α) (c : Cell) :
    (t.insert p a).form c = t.form c := by
  unfold insert
  split <;> rfl

theorem Tidy.insert (h : t.Tidy) (hp : p.cell? = none) (a : α) : (t.insert p a).Tidy := by
  have hforms (c : Cell) : ((t.insert p a).form c).cell? = some c := by
    rw [form_insert]
    exact h.forms c
  rcases map_insert t p a with hsame | ⟨hnew, hadded⟩
  · refine ⟨hforms, ?_, ?_⟩
    · rw [hsame]
      exact h.places
    · rw [hsame]
      exact h.apart
  · refine ⟨hforms, ?_, ?_⟩
    · rw [hadded]
      exact List.forall_mem_append.mpr ⟨h.places, List.forall_mem_singleton.mpr hp⟩
    · rw [hadded, List.pairwise_append]
      refine ⟨h.apart, List.pairwise_singleton _ _, fun q hq p' hp' => ?_⟩
      obtain ⟨row, hrow, rfl⟩ := List.mem_map.mp hq
      rw [List.mem_singleton.mp hp']
      exact hnew row hrow

theorem Tidy.erase (h : t.Tidy) (p : Place) : (t.erase p).Tidy where
  forms := h.forms
  places q hq := h.places q ((List.eraseP_sublist.map _).subset hq)
  apart := h.apart.sublist (List.eraseP_sublist.map _)

end Loose

/-- What is noted under places: under cells, and loosely under others. -/
structure Table (α : Type) where
  cells : Std.TreeMap Cell α := ∅
  loose : Loose α := {}

namespace Table

variable {α : Type}

def find? (t : Table α) (p : Place) : Option α :=
  match p.cell? with
  | some c => t.cells[c]?
  | none => t.loose.find? p

/-- Notes something under a place; a place that was noted before keeps its form. -/
def put (t : Table α) (p : Place) (a : α) : Table α :=
  match p.cell? with
  | some c =>
    { cells := t.cells.insert c a
      loose := if t.cells.contains c then t.loose else t.loose.setForm c p }
  | none => { t with loose := t.loose.insert p a }

def erase (t : Table α) (p : Place) : Table α :=
  match p.cell? with
  | some c => { t with cells := t.cells.erase c }
  | none => { t with loose := t.loose.erase p }

def putAll (t : Table α) (rows : List (Place × α)) : Table α :=
  rows.foldl (fun t row => t.put row.1 row.2) t

def rows (t : Table α) : List (Place × α) :=
  (t.cells.toList.map fun entry => (t.loose.form entry.1, entry.2)) ++ t.loose.entries

variable {t : Table α} {p : Place} {a : α} {row : Place × α}

theorem mem_rows : row ∈ t.rows ↔
    (∃ c, t.cells[c]? = some row.2 ∧ row.1 = t.loose.form c) ∨ row ∈ t.loose.entries := by
  rw [rows, List.mem_append, List.mem_map]
  refine or_congr_left ⟨?_, ?_⟩
  · rintro ⟨entry, hentry, rfl⟩
    exact ⟨entry.1, Std.TreeMap.mem_toList_iff_getElem?_eq_some.mp hentry, rfl⟩
  · rintro ⟨c, hc, hform⟩
    exact ⟨(c, row.2), Std.TreeMap.mem_toList_iff_getElem?_eq_some.mpr hc, by rw [← hform]⟩

/-- The rows of cells are those of the cells that are noted, in their forms. -/
theorem mem_rows_cell (h : t.loose.Tidy) {c : Cell} (hc : row.1.cell? = some c) :
    row ∈ t.rows ↔ t.cells[c]? = some row.2 ∧ row.1 = t.loose.form c := by
  rw [mem_rows]
  constructor
  · rintro (⟨d, hd, hform⟩ | hmem)
    · have hdc : some d = some c := by rw [← hc, hform, h.forms d]
      cases hdc
      exact ⟨hd, hform⟩
    · cases (h.places row.1 (List.mem_map_of_mem hmem)).symm.trans hc
  · exact fun hrow => .inl ⟨c, hrow⟩

theorem mem_rows_loose (h : t.loose.Tidy) (hnone : row.1.cell? = none) :
    row ∈ t.rows ↔ row ∈ t.loose.entries := by
  rw [mem_rows]
  refine or_iff_right ?_
  rintro ⟨d, -, hform⟩
  rw [hform, h.forms d] at hnone
  cases hnone

theorem exists_cell_of_mem_rows (h : t.loose = {}) (hrow : row ∈ t.rows) :
    ∃ c, t.cells[c]? = some row.2 ∧ row.1 = .cell c := by
  rcases mem_rows.mp hrow with ⟨c, hc, hplace⟩ | hmem
  · rw [h] at hplace
    exact ⟨c, hc, hplace⟩
  · rw [h] at hmem
    cases hmem

theorem tidy_put (h : t.loose.Tidy) (p : Place) (a : α) : (t.put p a).loose.Tidy := by
  unfold put
  cases hp : p.cell? with
  | some c =>
    show (if t.cells.contains c then t.loose else t.loose.setForm c p).Tidy
    split
    · exact h
    · exact h.setForm hp
  | none => exact h.insert hp a

theorem tidy_putAll (h : t.loose.Tidy) (rows : List (Place × α)) : (t.putAll rows).loose.Tidy := by
  induction rows generalizing t with
  | nil => exact h
  | cons row rows ih => exact ih (tidy_put h row.1 row.2)

theorem tidy_erase (h : t.loose.Tidy) (p : Place) : (t.erase p).loose.Tidy := by
  unfold erase
  cases p.cell? with
  | some c => exact h
  | none => exact h.erase p

theorem contains_put {c : Cell} (h : t.cells.contains c = true) (p : Place) (a : α) :
    (t.put p a).cells.contains c = true := by
  unfold put
  cases p.cell? with
  | some d => simp [h]
  | none => exact h

/-- A cell that is noted keeps its form. -/
theorem form_put {c : Cell} (h : t.cells.contains c = true) (p : Place) (a : α) :
    (t.put p a).loose.form c = t.loose.form c := by
  unfold put
  cases hp : p.cell? with
  | some d =>
    dsimp only
    split
    · rfl
    · next hd =>
      rw [Loose.form_setForm t.loose hp, if_neg]
      rintro rfl
      exact hd h
  | none => exact Loose.form_insert t.loose p a c

theorem find?_cell {c : Cell} (hp : p.cell? = some c) : t.find? p = t.cells[c]? := by
  simp only [find?, hp]

theorem find?_loose (hp : p.cell? = none) : t.find? p = t.loose.find? p := by
  simp only [find?, hp]

theorem put_cell {c : Cell} (hp : p.cell? = some c) : t.put p a =
    ⟨t.cells.insert c a, if t.cells.contains c then t.loose else t.loose.setForm c p⟩ := by
  simp only [put, hp]

theorem put_loose (hp : p.cell? = none) : t.put p a = ⟨t.cells, t.loose.insert p a⟩ := by
  simp only [put, hp]

theorem getElem?_put (t : Table α) (p : Place) (a : α) (c : Cell) :
    (t.put p a).cells[c]? = if p.cell? = some c then some a else t.cells[c]? := by
  cases hp : p.cell? with
  | some d =>
    rw [put_cell hp]
    simp only [Std.TreeMap.getElem?_insert, Std.compare_eq_iff_eq, Option.some.injEq]
  | none =>
    rw [put_loose hp]
    rfl

theorem entries_put_cell {c : Cell} (hp : p.cell? = some c) :
    (t.put p a).loose.entries = t.loose.entries := by
  rw [put_cell hp]
  dsimp only
  split
  · rfl
  · exact Loose.entries_setForm t.loose c p

/-- Noting something brings no place into a table but its own, and that only if nothing was noted
there. -/
theorem place_of_mem_put (h : row ∈ (t.put p a).rows) :
    (row.1 = p ∧ t.find? p = none) ∨ ∃ old ∈ t.rows, old.1 = row.1 := by
  rcases mem_rows.mp h with ⟨c, hc, hplace⟩ | hmem
  · cases hold : t.cells[c]? with
    | some old =>
      have hthere : t.cells.contains c = true := by
        rw [Std.TreeMap.contains_eq_isSome_getElem?, hold]
        rfl
      rw [form_put hthere] at hplace
      exact .inr ⟨(t.loose.form c, old), mem_rows.mpr (.inl ⟨c, hold, rfl⟩), hplace.symm⟩
    | none =>
      have hnew : t.cells.contains c = false := by
        rw [Std.TreeMap.contains_eq_isSome_getElem?, hold]
        rfl
      cases hp : p.cell? with
      | some d =>
        rw [getElem?_put, hold] at hc
        rw [put_cell hp] at hplace
        obtain rfl : d = c := by_contra fun hne => by simp [hp, hne] at hc
        simp only [hnew, Bool.false_eq_true, if_false] at hplace
        rw [Loose.form_setForm t.loose hp, if_pos rfl] at hplace
        exact .inl ⟨hplace, (find?_cell hp).trans hold⟩
      | none =>
        rw [put_loose hp] at hc
        cases hold.symm.trans hc
  · cases hp : p.cell? with
    | some d =>
      rw [entries_put_cell hp] at hmem
      exact .inr ⟨row, mem_rows.mpr (.inr hmem), rfl⟩
    | none =>
      rw [put_loose hp] at hmem
      have hplace : row.1 ∈ (t.loose.insert p a).entries.map Prod.fst := List.mem_map_of_mem hmem
      have hold (hthere : row.1 ∈ t.loose.entries.map Prod.fst) :
          ∃ old ∈ t.rows, old.1 = row.1 := by
        obtain ⟨old, hold, heq⟩ := List.mem_map.mp hthere
        exact ⟨old, mem_rows.mpr (.inr hold), heq⟩
      rcases Loose.map_insert t.loose p a with hsame | ⟨hnew, hadded⟩
      · rw [hsame] at hplace
        exact .inr (hold hplace)
      · rw [hadded, List.mem_append, List.mem_singleton] at hplace
        refine hplace.elim (fun hthere => .inr (hold hthere)) fun heq => .inl ⟨heq, ?_⟩
        have hnone : t.loose.entries.find? (·.1.same p) = none := by
          simpa [List.find?_eq_none] using hnew
        rw [find?_loose hp, Loose.find?, hnone]
        rfl

theorem mem_rows_of_mem_erase (h : row ∈ (t.erase p).rows) : row ∈ t.rows := by
  unfold erase at h
  cases hp : p.cell? with
  | some c =>
    rw [hp] at h
    rcases mem_rows.mp h with ⟨d, hd, hplace⟩ | hmem
    · have hd : (t.cells.erase c)[d]? = some row.2 := hd
      rw [Std.TreeMap.getElem?_erase] at hd
      split at hd
      · cases hd
      · exact mem_rows.mpr (.inl ⟨d, hd, hplace⟩)
    · exact mem_rows.mpr (.inr hmem)
  | none =>
    rw [hp] at h
    rcases mem_rows.mp h with hcell | hmem
    · exact mem_rows.mpr (.inl hcell)
    · exact mem_rows.mpr (.inr (List.mem_of_mem_eraseP hmem))

/-- A cell takes the form in which it is noted, if that is its form already or it is new. -/
theorem form_put_self (h : t.loose.Tidy) {c : Cell} (hp : p.cell? = some c)
    (hform : ∀ row ∈ t.rows, row.1.same p = true → row.1 = p) : (t.put p a).loose.form c = p := by
  rw [put_cell hp]
  dsimp only
  split
  · next hc =>
    rw [Std.TreeMap.contains_eq_isSome_getElem?, Option.isSome_iff_exists] at hc
    obtain ⟨old, hold⟩ := hc
    have hsame := Place.same_of_cell? (h.forms c) hp
    exact hform (t.loose.form c, old) (mem_rows.mpr (.inl ⟨c, hold, rfl⟩)) hsame
  · rw [Loose.form_setForm t.loose hp, if_pos rfl]

theorem form_put_other {c : Cell} (hp : p.cell? ≠ some c) :
    (t.put p a).loose.form c = t.loose.form c := by
  cases hd : p.cell? with
  | some d =>
    rw [put_cell hd]
    dsimp only
    split
    · rfl
    · rw [Loose.form_setForm t.loose hd, if_neg]
      rintro rfl
      exact hp hd
  | none =>
    rw [put_loose hd]
    exact Loose.form_insert t.loose p a c

/-- Noting something replaces the row of its place or adds one. Here the place is given in the form
in which it stands in the table, if it does. -/
theorem mem_rows_put (h : t.loose.Tidy)
    (hform : ∀ row ∈ t.rows, row.1.same p = true → row.1 = p) :
    row ∈ (t.put p a).rows ↔ row = (p, a) ∨ row ∈ t.rows ∧ row.1.same p = false := by
  obtain ⟨q, b⟩ := row
  have hother (hdiffer : q.cell? ≠ p.cell?) : (q, b) ≠ (p, a) := by
    rintro ⟨⟩
    exact hdiffer rfl
  -- a place that is a cell and one that is none have nothing to do with each other
  cases hq : q.cell? with
  | some d =>
    rw [mem_rows_cell (tidy_put h p a) hq, mem_rows_cell h hq, getElem?_put]
    by_cases hp : p.cell? = some d
    · rw [if_pos hp, form_put_self h hp hform, Place.same_of_cell? hq hp]
      simp [and_comm, eq_comm]
    · have hdiffer : q.cell? ≠ p.cell? := fun heq => hp (heq.symm.trans hq)
      rw [if_neg hp, form_put_other hp, Place.not_same_of_cell? hdiffer]
      simp [hother hdiffer]
  | none =>
    rw [mem_rows_loose (tidy_put h p a) hq, mem_rows_loose h hq]
    cases hp : p.cell? with
    | some c =>
      have hdiffer : q.cell? ≠ p.cell? := by
        rw [hq, hp]
        nofun
      rw [entries_put_cell hp, Place.not_same_of_cell? hdiffer]
      simp [hother hdiffer]
    | none =>
      rw [put_loose hp]
      exact Loose.mem_insert fun row hrow => hform row (mem_rows.mpr (.inr hrow))

/-- After noting some rows, of which no two are of equal places, these rows stand in the table, and
beside them the old ones of other places. -/
theorem mem_rows_putAll {rows : List (Place × α)} (h : t.loose.Tidy)
    (hapart : rows.Pairwise fun row other => row.1.same other.1 = false)
    (hform : ∀ row ∈ t.rows, ∀ new ∈ rows, row.1.same new.1 = true → row.1 = new.1) :
    row ∈ (t.putAll rows).rows ↔
      row ∈ rows ∨ row ∈ t.rows ∧ ∀ new ∈ rows, row.1.same new.1 = false := by
  induction rows generalizing t with
  | nil => simp [putAll]
  | cons new rows ih =>
    rw [List.pairwise_cons] at hapart
    have hput {row : Place × α} : row ∈ (t.put new.1 new.2).rows ↔
        row = new ∨ row ∈ t.rows ∧ row.1.same new.1 = false :=
      mem_rows_put h fun row hrow => hform row hrow new List.mem_cons_self
    have hnext : ∀ row ∈ (t.put new.1 new.2).rows, ∀ later ∈ rows,
        row.1.same later.1 = true → row.1 = later.1 := by
      intro row hrow later hlater hsame
      rcases hput.mp hrow with rfl | ⟨hrow, -⟩
      · rw [hapart.1 later hlater] at hsame
        cases hsame
      · exact hform row hrow later (List.mem_cons_of_mem _ hlater) hsame
    show row ∈ ((t.put new.1 new.2).putAll rows).rows ↔ _
    rw [ih (tidy_put h new.1 new.2) hapart.2 hnext, hput, List.mem_cons, List.forall_mem_cons]
    constructor
    · rintro (hrow | ⟨hrow | ⟨hrow, hsame⟩, hlater⟩)
      · exact .inl (.inr hrow)
      · exact .inl (.inl hrow)
      · exact .inr ⟨hrow, hsame, hlater⟩
    · rintro ((hrow | hrow) | ⟨hrow, hsame, hlater⟩)
      · exact .inr ⟨.inl hrow, hrow ▸ hapart.1⟩
      · exact .inl hrow
      · exact .inr ⟨.inr ⟨hrow, hsame⟩, hlater⟩

/-- No two rows are of equal places. -/
theorem pairwise_rows (h : t.loose.Tidy) :
    t.rows.Pairwise fun row other => row.1.same other.1 = false := by
  refine List.pairwise_append.mpr ⟨?_, List.pairwise_map.mp h.apart, ?_⟩
  · refine List.pairwise_map.mpr (Std.TreeMap.distinct_keys_toList.imp fun hne => ?_)
    refine Place.not_same_of_cell? fun heq => hne ?_
    rw [h.forms, h.forms] at heq
    exact Std.compare_eq_iff_eq.mpr (Option.some.inj heq)
  · intro row hrow other hother
    obtain ⟨entry, -, rfl⟩ := List.mem_map.mp hrow
    refine Place.not_same_of_cell? ?_
    rw [h.forms, h.places other.1 (List.mem_map_of_mem hother)]
    nofun

/-- Whether every place of a table has ranks. -/
def Ranked (t : Table α) : Prop := ∀ row ∈ t.rows, ∃ r, row.1.ranks? = some r

theorem pairwise_ranks (h : t.loose.Tidy) (hranked : t.Ranked) :
    t.rows.Pairwise fun row other => row.1.ranks? ≠ other.1.ranks? := by
  refine (pairwise_rows h).imp_of_mem fun {row other} hrow _ hsame heq => ?_
  obtain ⟨r, hr⟩ := hranked row hrow
  rw [(Place.same_iff_ranks hr).mpr (heq ▸ hr)] at hsame
  cases hsame

theorem eq_of_ranks (h : t.loose.Tidy) (hranked : t.Ranked) {other : Place × α}
    (hrow : row ∈ t.rows)
    (hother : other ∈ t.rows) (heq : row.1.ranks? = other.1.ranks?) : row = other := by
  by_contra hne
  have : Std.Symm fun row other : Place × α => row.1.ranks? ≠ other.1.ranks? :=
    ⟨fun _ _ hdiffer => hdiffer.symm⟩
  exact (pairwise_ranks h hranked).forall hrow hother hne heq

theorem nodup_rows (h : t.loose.Tidy) (hranked : t.Ranked) : t.rows.Nodup :=
  (pairwise_ranks h hranked).imp fun hdiffer heq =>
    hdiffer (congrArg (fun row : Place × α => row.1.ranks?) heq)

/-- Rows are found by their places. -/
theorem find?_eq_some (h : t.loose.Tidy) (hranked : t.Ranked) :
    t.find? p = some a ↔ ∃ q, (q, a) ∈ t.rows ∧ q.same p = true := by
  cases hp : p.cell? with
  | some c =>
    rw [find?_cell hp]
    constructor
    · intro hfound
      exact ⟨t.loose.form c, mem_rows.mpr (.inl ⟨c, hfound, rfl⟩),
        Place.same_of_cell? (h.forms c) hp⟩
    · rintro ⟨q, hrow, hsame⟩
      have hq : q.cell? = some c := (Place.cell?_congr hsame).trans hp
      exact ((mem_rows_cell h hq).mp hrow).1
  | none =>
    rw [find?_loose hp, Loose.find?, Option.map_eq_some_iff]
    constructor
    · rintro ⟨row, hfound, rfl⟩
      have hsame := List.find?_some hfound
      exact ⟨row.1, mem_rows.mpr (.inr (List.mem_of_find?_eq_some hfound)), hsame⟩
    · rintro ⟨q, hrow, hsame⟩
      have hq : q.cell? = none := (Place.cell?_congr hsame).trans hp
      obtain ⟨found, hfound⟩ : ∃ found, t.loose.entries.find? (·.1.same p) = some found := by
        rw [← Option.isSome_iff_exists, List.find?_isSome]
        exact ⟨_, (mem_rows_loose h hq).mp hrow, hsame⟩
      -- the row that is found first is this one, since no other row is of an equal place
      have hthere := mem_rows.mpr (.inr (List.mem_of_find?_eq_some hfound))
      have hsame' := List.find?_some hfound
      obtain ⟨r, hr⟩ := hranked _ hrow
      obtain ⟨s, hs⟩ := hranked _ hthere
      have heq : found.1.ranks? = q.ranks? := by
        rw [hs, hr, ← (Place.same_iff_ranks hs).mp hsame', ← (Place.same_iff_ranks hr).mp hsame]
      have hrows : found = (q, a) := eq_of_ranks h hranked hthere hrow heq
      exact ⟨found, hfound, by rw [hrows]⟩

end Table

end MazeDuel
