import MazeDuel.Proofs.World.Tables
/-!
Listings: the rows of a table in the order of their places. A table is listed if any two of its
places have an order, and there is only one way to list its rows; otherwise it is not listed at all.
-/

namespace MazeDuel

open Number (Line)

namespace Place

/-- Whether a place comes before another by its ranks. -/
def Before (p q : Place) : Prop := ∃ r s, p.ranks? = some r ∧ q.ranks? = some s ∧ r < s

variable {p q : Place}

theorem before_iff {r s : List Rank} (hp : p.ranks? = some r) (hq : q.ranks? = some s) :
    p.Before q ↔ r < s := by
  simp [Before, hp, hq]

theorem Before.trans {p' : Place} (h : p.Before q) (h' : q.Before p') : p.Before p' := by
  obtain ⟨r, s, hp, hq, hlt⟩ := h
  obtain ⟨s', r', hq', hp', hlt'⟩ := h'
  obtain rfl : s = s' := Option.some.inj (hq.symm.trans hq')
  exact ⟨r, r', hp, hp', List.lt_trans hlt hlt'⟩

theorem Before.not_before (h : p.Before q) : ¬ q.Before p := by
  obtain ⟨r, s, hp, hq, hlt⟩ := h
  rw [before_iff hq hp]
  exact fun hgt => Std.Asymm.asymm _ _ hlt hgt

theorem before_cell {c d : Cell} (hp : p.cell? = some c) (hq : q.cell? = some d)
    (h : compare c d = .lt) : p.Before q := by
  have h : (compare c.x d.x).then (compare c.y d.y) = .lt := h
  rw [Ordering.then_eq_lt, Int.compare_eq_lt, Int.compare_eq_eq, Int.compare_eq_lt] at h
  rw [before_iff (cell?_eq_some.mp hp) (cell?_eq_some.mp hq)]
  simpa [Cell.ranks, List.cons_lt_cons_iff, Line.ofRat_lt, Line.ofRat_inj] using h

/-- Whether two places have an order. -/
def Ordered (p q : Place) : Prop := p.Before q ∨ q.Before p

theorem Ordered.symm (h : p.Ordered q) : q.Ordered p := Or.symm h

end Place

section

variable {α : Type} {row : Place × α} {rows listed : List (Place × α)}

/-- Whether rows stand in the order of their places. -/
def InOrder (rows : List (Place × α)) : Prop := rows.Pairwise fun row other => row.1.Before other.1

/-- Rows of one table are listed in one way only. -/
theorem InOrder.eq_of_perm {others : List (Place × α)} (h : InOrder rows) (h' : InOrder others)
    (hperm : rows.Perm others) : rows = others :=
  hperm.eq_of_pairwise (fun _ _ _ _ hlt hgt => absurd hgt hlt.not_before) h h'

/-- A row is inserted in its place, unless it meets one with which it has no order. -/
theorem insertEntry_spec {r : List Rank} (hrow : row.1.ranks? = some r) (h : InOrder listed)
    (hlisted : ∀ other ∈ listed, ∃ s, other.1.ranks? = some s ∧ s ≠ r) :
    (∃ longer, Place.insertEntry row listed = .ok longer ∧ longer.Perm (row :: listed) ∧
      InOrder longer) ∨
    (Place.insertEntry row listed = .error .wrongType ∧
      ∃ other ∈ listed, ¬ other.1.Ordered row.1) := by
  induction listed with
  | nil => exact .inl ⟨[row], rfl, .refl _, List.pairwise_singleton _ _⟩
  | cons first rest ih =>
    obtain ⟨s, hs, hdiffer⟩ := hlisted first List.mem_cons_self
    obtain ⟨hfirst, hrest⟩ := List.pairwise_cons.mp h
    rw [Place.insertEntry]
    rcases Place.before?_cases hrow hs with ⟨hlt, hbefore⟩ | ⟨hge, hbefore⟩ |
      ⟨hlt, hgt, -, hbefore⟩
    · have hhead : row.1.Before first.1 := (Place.before_iff hrow hs).mpr hlt
      have hall : ∀ other ∈ first :: rest, row.1.Before other.1 :=
        List.forall_mem_cons.mpr ⟨hhead, fun other hother => hhead.trans (hfirst other hother)⟩
      exact .inl ⟨_, by rw [hbefore], .refl _, List.pairwise_cons.mpr ⟨hall, h⟩⟩
    · have hhead : first.1.Before row.1 :=
        (Place.before_iff hs hrow).mpr (hge.resolve_right hdiffer.symm)
      rw [hbefore]
      rcases ih hrest fun other hother => hlisted other (List.mem_cons_of_mem _ hother) with
        ⟨longer, hlonger, hperm, horder⟩ | ⟨hfault, other, hother, hnone⟩
      · have hall : ∀ other ∈ longer, first.1.Before other.1 := by
          intro other hother
          rcases List.mem_cons.mp (hperm.subset hother) with rfl | hother
          · exact hhead
          · exact hfirst other hother
        refine .inl ⟨first :: longer, by rw [hlonger]; rfl, ?_,
          List.pairwise_cons.mpr ⟨hall, horder⟩⟩
        exact (hperm.cons first).trans (.swap row first rest)
      · exact .inr ⟨by rw [hfault]; rfl, other, List.mem_cons_of_mem _ hother, hnone⟩
    · rw [hbefore]
      refine .inr ⟨rfl, first, List.mem_cons_self, ?_⟩
      rw [Place.Ordered, Place.before_iff hs hrow, Place.before_iff hrow hs]
      exact fun h => h.elim hgt hlt

/-- Rows are inserted one after the other, unless two of all have no order. -/
theorem foldlM_insertEntry_spec (h : InOrder listed)
    (hranked : ∀ row ∈ listed ++ rows, ∃ r, row.1.ranks? = some r)
    (hdiffer : (listed ++ rows).Pairwise fun row other => row.1.ranks? ≠ other.1.ranks?) :
    (∃ all, rows.foldlM (fun listed row => Place.insertEntry row listed) listed = .ok all ∧
      all.Perm (listed ++ rows) ∧ InOrder all) ∨
    (rows.foldlM (fun listed row => Place.insertEntry row listed) listed = .error .wrongType ∧
      ¬ (listed ++ rows).Pairwise fun row other => row.1.Ordered other.1) := by
  induction rows generalizing listed with
  | nil => exact .inl ⟨listed, rfl, by rw [List.append_nil], h⟩
  | cons row rows ih =>
    obtain ⟨r, hr⟩ := hranked row (by simp)
    have hlisted : ∀ other ∈ listed, ∃ s, other.1.ranks? = some s ∧ s ≠ r := by
      intro other hother
      obtain ⟨s, hs⟩ := hranked other (List.mem_append_left _ hother)
      have hne := (List.pairwise_append.mp hdiffer).2.2 other hother row List.mem_cons_self
      exact ⟨s, hs, fun e => hne (by rw [hs, hr, e])⟩
    rw [List.foldlM_cons]
    rcases insertEntry_spec hr h hlisted with ⟨longer, hlonger, hperm, horder⟩ |
      ⟨hfault, other, hother, hnone⟩
    · have hall : (longer ++ rows).Perm (listed ++ row :: rows) :=
        (hperm.append_right rows).trans List.perm_middle.symm
      rw [hlonger]
      rcases ih horder (fun row hrow => hranked row (hall.subset hrow))
        ((hall.pairwise_iff Ne.symm).mpr hdiffer) with
        ⟨all, hfold, hperm', horder'⟩ | ⟨hfold, hnone⟩
      · exact .inl ⟨all, hfold, hperm'.trans hall, horder'⟩
      · exact .inr ⟨hfold, fun hall' => hnone ((hall.pairwise_iff Place.Ordered.symm).mpr hall')⟩
    · rw [hfault]
      refine .inr ⟨rfl, fun hall => hnone ?_⟩
      exact (List.pairwise_append.mp hall).2.2 other hother row List.mem_cons_self

end

namespace Table

variable {α : Type} {t : Table α}

def listed (t : Table α) : Except Fault (List (Place × α)) := Grid.entries t.cells.toList t.loose

/-- Whether any two places of a table have an order. -/
def Sortable (t : Table α) : Prop := t.rows.Pairwise fun row other => row.1.Ordered other.1

/-- The cells come in order from the start. -/
theorem inOrder_cells (h : t.loose.Tidy) :
    InOrder (t.cells.toList.map fun entry => (t.loose.form entry.1, entry.2)) := by
  refine List.pairwise_map.mpr (Std.TreeMap.ordered_keys_toList.imp fun hlt => ?_)
  exact Place.before_cell (h.forms _) (h.forms _) hlt

theorem listed_spec (h : t.loose.Tidy) (hranked : t.Ranked) :
    (∃ rows, t.listed = .ok rows ∧ rows.Perm t.rows ∧ InOrder rows) ∨
      (t.listed = .error .wrongType ∧ ¬ t.Sortable) :=
  foldlM_insertEntry_spec (inOrder_cells h) hranked (pairwise_ranks h hranked)

theorem inOrder_listed {rows : List (Place × α)} (h : t.loose.Tidy) (hranked : t.Ranked)
    (hlisted : t.listed = .ok rows) : rows.Perm t.rows ∧ InOrder rows := by
  rcases listed_spec h hranked with ⟨found, hfound, hspec⟩ | ⟨hfault, -⟩
  · cases hlisted.symm.trans hfound
    exact hspec
  · cases hlisted.symm.trans hfault

theorem exists_listed (h : t.loose.Tidy) (hranked : t.Ranked) (hsort : t.Sortable) :
    ∃ rows, t.listed = .ok rows ∧ rows.Perm t.rows ∧ InOrder rows :=
  (listed_spec h hranked).resolve_right fun hfault => hfault.2 hsort

theorem sortable_of_inOrder {rows : List (Place × α)} (horder : InOrder rows)
    (hperm : rows.Perm t.rows) : t.Sortable :=
  (hperm.pairwise_iff Place.Ordered.symm).mp (horder.imp fun hbefore => .inl hbefore)

variable {base : Table α} {rows : List (Place × α)}

/-- The rows of a table, noted over another one all of whose places are places of the table, are the
rows that there are afterwards. -/
theorem mem_rows_reload (h : t.loose.Tidy) (hranked : t.Ranked) (hperm : rows.Perm t.rows)
    (hbase : base.loose.Tidy) (hcovered : ∀ row ∈ base.rows, ∃ a, (row.1, a) ∈ t.rows)
    (row : Place × α) : row ∈ (base.putAll rows).rows ↔ row ∈ t.rows := by
  have hapart : rows.Pairwise fun row other => row.1.same other.1 = false := by
    refine List.Pairwise.imp_of_mem (fun {row other} hrow hother hdiffer => ?_)
      ((hperm.pairwise_iff Ne.symm).mpr (pairwise_ranks h hranked))
    obtain ⟨r, hr⟩ := hranked row (hperm.subset hrow)
    rw [← Bool.not_eq_true, Place.same_iff_ranks hr, ← hr]
    exact hdiffer.symm
  have hform : ∀ row ∈ base.rows, ∀ new ∈ rows, row.1.same new.1 = true → row.1 = new.1 := by
    intro row hrow new hnew hsame
    obtain ⟨a, ha⟩ := hcovered row hrow
    obtain ⟨r, hr⟩ := hranked _ ha
    have hrows : (row.1, a) = new := eq_of_ranks h hranked ha (hperm.subset hnew)
      (hr.trans ((Place.same_iff_ranks hr).mp hsame).symm)
    rw [← hrows]
  rw [mem_rows_putAll hbase hapart hform, hperm.mem_iff]
  refine or_iff_left fun hold => ?_
  obtain ⟨a, ha⟩ := hcovered row hold.1
  obtain ⟨r, hr⟩ := hranked _ ha
  have hself := (Place.same_iff_ranks hr).mpr hr
  rw [hold.2 _ (hperm.mem_iff.mpr ha)] at hself
  cases hself

/-- A table that is listed and noted again finds the same under every place and is listed the same.
-/
theorem reload_spec (h : t.loose.Tidy) (hranked : t.Ranked) (hlisted : t.listed = .ok rows)
    (hbase : base.loose.Tidy) (hcovered : ∀ row ∈ base.rows, ∃ a, (row.1, a) ∈ t.rows) :
    (∀ p, (base.putAll rows).find? p = t.find? p) ∧ (base.putAll rows).listed = .ok rows := by
  obtain ⟨hperm, horder⟩ := inOrder_listed h hranked hlisted
  have hmem := mem_rows_reload h hranked hperm hbase hcovered
  have htidy : (base.putAll rows).loose.Tidy := tidy_putAll hbase rows
  have hranked' : (base.putAll rows).Ranked := fun row hrow => hranked row ((hmem row).mp hrow)
  have hsame : rows.Perm (base.putAll rows).rows :=
    hperm.trans ((List.perm_ext_iff_of_nodup (nodup_rows h hranked)
      (nodup_rows htidy hranked')).mpr fun row => (hmem row).symm)
  constructor
  · intro p
    ext a
    rw [find?_eq_some htidy hranked', find?_eq_some h hranked]
    simp only [hmem]
  · obtain ⟨again, hagain, hperm', horder'⟩ :=
      exists_listed htidy hranked' (sortable_of_inOrder horder hsame)
    rw [hagain, horder'.eq_of_perm horder (hperm'.trans hsame.symm)]

end Table

end MazeDuel
