import MazeDuel.Grid.Document
import MazeDuel.Proofs.Number.Order
/-!
Ranks: what places are compared by. A number is compared by where it stands, a text by itself, and
null is equal to null. Ranks of one kind are equal or one comes first; ranks of two kinds are
neither. Places are equal just when their ranks are, and come one before the other as their ranks
do.
-/

namespace MazeDuel

open Number (Line)

/-- What a value is compared by: its place on the line, its text, or that it is null. -/
abbrev Rank := Line ⊕ String ⊕ Unit

namespace Json

/-- The rank of a value; what is made of other values has none, and no more has a number that is
none. -/
def rank? : Json → Option Rank
  | .null => some (.inr (.inr ()))
  | .text s => some (.inr (.inl s))
  | value => (Quantity.ofJson? value).bind fun q => q.place.map .inl

variable {a b : Json} {q q' : Quantity} {r s : Rank}

theorem rank?_of_number (h : Quantity.ofJson? a = some q) : a.rank? = q.place.map .inl := by
  cases a <;> cases h <;> rfl

theorem rank_cases (h : a.rank? = some r) :
    (a = .null ∧ r = .inr (.inr ())) ∨ (∃ s, a = .text s ∧ r = .inr (.inl s)) ∨
      ∃ q p, Quantity.ofJson? a = some q ∧ q.place = some p ∧ r = .inl p := by
  cases hq : Quantity.ofJson? a with
  | some q =>
    rw [rank?_of_number hq, Option.map_eq_some_iff] at h
    obtain ⟨p, hp, rfl⟩ := h
    exact .inr (.inr ⟨q, p, rfl, hp, rfl⟩)
  | none =>
    cases a with
    | null => exact .inl ⟨rfl, (Option.some.inj h).symm⟩
    | text s => exact .inr (.inl ⟨s, rfl, (Option.some.inj h).symm⟩)
    | list items => cases h
    | object members => cases h
    | bool value => cases hq
    | whole value => cases hq
    | real value => cases hq

theorem same_number (ha : Quantity.ofJson? a = some q) (hb : Quantity.ofJson? b = some q') :
    a.same b = q.same q' := by
  cases a <;> cases ha <;> cases b <;> cases hb <;> rfl

/-- A value with a rank is equal to just the values of that rank. -/
theorem same_iff_rank (h : a.rank? = some r) : a.same b = true ↔ b.rank? = some r := by
  cases hb : Quantity.ofJson? b with
  | some q' =>
    rw [rank?_of_number hb, Option.map_eq_some_iff]
    rcases rank_cases h with ⟨rfl, rfl⟩ | ⟨s, rfl, rfl⟩ | ⟨q, p, hq, hp, rfl⟩
    · cases b <;> cases hb <;> simp [same, Quantity.ofJson?]
    · cases b <;> cases hb <;> simp [same, Quantity.ofJson?]
    · rw [same_number hq hb, Quantity.same_iff]
      simp [hp]
  | none =>
    rcases rank_cases h with ⟨rfl, rfl⟩ | ⟨s, rfl, rfl⟩ | ⟨q, p, hq, hp, rfl⟩
    · cases b <;> cases hb <;> simp [same, rank?, Quantity.ofJson?]
    · cases b <;> cases hb <;> simp [same, rank?, Quantity.ofJson?, Eq.comm (a := s)]
    · cases a <;> cases hq <;> cases b <;> cases hb <;> simp [same, rank?, Quantity.ofJson?]

/-- Whether a value comes before another that is not equal to it. -/
def before? (a b : Json) : Option Bool :=
  match a, b with
  | .text s, .text t => some (s < t)
  | _, _ => do return (← Quantity.ofJson? a).lt (← Quantity.ofJson? b)

theorem before?_number (ha : Quantity.ofJson? a = some q) (hb : Quantity.ofJson? b = some q') :
    a.before? b = some (q.lt q') := by
  cases a <;> cases ha <;> cases b <;> cases hb <;> rfl

/-- Two values that differ compare as their ranks do, one way or the other. -/
theorem before?_cases (ha : a.rank? = some r) (hb : b.rank? = some s) (hne : r ≠ s) :
    (r < s ∧ a.before? b = some true) ∨ (s < r ∧ a.before? b = some false) ∨
      (¬ r < s ∧ ¬ s < r ∧ a.before? b = none) := by
  rcases rank_cases ha with ⟨rfl, rfl⟩ | ⟨t, rfl, rfl⟩ | ⟨q, p, hq, hp, rfl⟩ <;>
    rcases rank_cases hb with ⟨rfl, rfl⟩ | ⟨t', rfl, rfl⟩ | ⟨q', p', hq', hp', rfl⟩
  · exact absurd rfl hne
  · simp [before?, Quantity.ofJson?]
  · simp [before?, Quantity.ofJson?]
  · simp [before?, Quantity.ofJson?]
  · rcases lt_trichotomy t t' with h | rfl | h
    · exact .inl ⟨by simpa using h, congrArg some (decide_eq_true h)⟩
    · exact absurd rfl hne
    · exact .inr (.inl ⟨by simpa using h, congrArg some (decide_eq_false h.not_gt)⟩)
  · cases b <;> cases hq' <;> simp [before?, Quantity.ofJson?]
  · simp [before?, Quantity.ofJson?]
  · cases a <;> cases hq <;> simp [before?, Quantity.ofJson?]
  · rw [before?_number hq hq']
    rcases lt_trichotomy p p' with h | rfl | h
    · exact .inl ⟨by simpa using h, congrArg some (Quantity.lt_iff.mpr ⟨p, p', hp, hp', h⟩)⟩
    · exact absurd rfl hne
    · have hlt : q'.lt q = true := Quantity.lt_iff.mpr ⟨p', p, hp', hp, h⟩
      exact .inr (.inl ⟨by simpa using h, congrArg some (Quantity.not_lt_of_lt hlt)⟩)

theorem coordinate?_eq_some {n : Int} :
    Place.coordinate? a = some n ↔ a.rank? = some (.inl (Line.ofRat n)) := by
  unfold Place.coordinate?
  cases hq : Quantity.ofJson? a with
  | some q =>
    rw [rank?_of_number hq, Option.bind_some, Quantity.integral?_eq_some]
    simp
  | none => cases a <;> cases hq <;> simp [rank?, Quantity.ofJson?]

end Json

namespace Place

/-- The ranks of a row of values, if each has one. -/
def ranksOf? (values : List Json) : Option (List Rank) := values.mapM Json.rank?

variable {values others : List Json} {r s : List Rank}

@[simp] theorem ranksOf?_nil : ranksOf? [] = some [] := rfl

theorem ranksOf?_cons_eq_some {value : Json} :
    ranksOf? (value :: values) = some r ↔
      ∃ x rest, value.rank? = some x ∧ ranksOf? values = some rest ∧ r = x :: rest := by
  simp only [ranksOf?, List.mapM_cons, bind, Option.bind_eq_some_iff, pure, Option.some.injEq]
  simp only [Eq.comm (b := r), exists_and_left]

theorem sameAll_iff_ranks (h : ranksOf? values = some r) :
    Json.sameAll values others = true ↔ ranksOf? others = some r := by
  induction values generalizing others r with
  | nil =>
    cases h
    cases others with
    | nil => simp [Json.sameAll]
    | cons other others => simp [Json.sameAll, ranksOf?_cons_eq_some]
  | cons value values ih =>
    obtain ⟨x, rest, hx, hrest, rfl⟩ := ranksOf?_cons_eq_some.mp h
    cases others with
    | nil => simp [Json.sameAll]
    | cons other others =>
      simp [Json.sameAll, ranksOf?_cons_eq_some, Json.same_iff_rank hx, ih hrest]

theorem before?_cons (value other : Json) (values others : List Json) :
    before? (value :: values) (other :: others) =
      if value.same other then before? values others else value.before? other := by
  rfl

/-- Rows compare as their ranks do, where equal rows count as one that does not come before. -/
theorem before?_cases (h : ranksOf? values = some r) (h' : ranksOf? others = some s) :
    (r < s ∧ before? values others = some true) ∨
      ((s < r ∨ r = s) ∧ before? values others = some false) ∨
      (¬ r < s ∧ ¬ s < r ∧ r ≠ s ∧ before? values others = none) := by
  induction values generalizing others r s with
  | nil =>
    cases h
    cases others with
    | nil =>
      cases h'
      exact .inr (.inl ⟨.inr rfl, rfl⟩)
    | cons other others =>
      obtain ⟨y, rest, -, -, rfl⟩ := ranksOf?_cons_eq_some.mp h'
      exact .inl ⟨List.nil_lt_cons y rest, rfl⟩
  | cons value values ih =>
    obtain ⟨x, rest, hx, hrest, rfl⟩ := ranksOf?_cons_eq_some.mp h
    cases others with
    | nil =>
      cases h'
      exact .inr (.inl ⟨.inl (List.nil_lt_cons x rest), rfl⟩)
    | cons other others =>
      obtain ⟨y, rest', hy, hrest', rfl⟩ := ranksOf?_cons_eq_some.mp h'
      rw [before?_cons]
      simp only [List.cons_lt_cons_iff, Json.same_iff_rank hx, hy, Option.some.injEq]
      by_cases hxy : x = y
      · subst hxy
        simpa using ih hrest hrest'
      · have hyx : ¬ y = x := fun h => hxy h.symm
        simpa [hxy, hyx] using Json.before?_cases hx hy hxy

theorem before?_eq_true (h : ranksOf? values = some r) (h' : ranksOf? others = some s) :
    before? values others = some true ↔ r < s := by
  rcases before?_cases h h' with ⟨hlt, heq⟩ | ⟨hge, heq⟩ | ⟨hlt, -, -, heq⟩
  · simp [hlt, heq]
  · have hlt : ¬ r < s := by
      rcases hge with hgt | rfl
      · exact fun hlt => Std.Asymm.asymm _ _ hlt hgt
      · exact List.lt_irrefl r
    simp [hlt, heq]
  · simp [hlt, heq]

def ranks? (p : Place) : Option (List Rank) := ranksOf? p.values

end Place

def Cell.ranks (c : Cell) : List Rank := [.inl (Line.ofRat c.x), .inl (Line.ofRat c.y)]

theorem Cell.ranks_inj {c d : Cell} : c.ranks = d.ranks ↔ c = d := by
  cases c
  cases d
  simp [ranks, Line.ofRat_inj]

namespace Place

variable {p q : Place} {r s : List Rank}

theorem ranks?_cell (c : Cell) : (cell c).ranks? = some c.ranks := rfl

/-- A place is equal to a cell if it ranks as the cell does. -/
theorem cell?_eq_some {c : Cell} : p.cell? = some c ↔ p.ranks? = some c.ranks := by
  match p with
  | .cell d => rw [cell?_cell, ranks?_cell, Option.some.injEq, Option.some.injEq, Cell.ranks_inj]
  | .row [x, y] =>
    have hboth : (row [x, y]).cell? = some c ↔
        coordinate? x = some c.x ∧ coordinate? y = some c.y := by
      cases c
      rw [cell?]
      cases coordinate? x <;> cases coordinate? y <;> simp
    rw [hboth, Json.coordinate?_eq_some, Json.coordinate?_eq_some]
    simp [ranks?, values, ranksOf?_cons_eq_some, Cell.ranks]
  | .row [] => simp [cell?, ranks?, values, Cell.ranks]
  | .row [x] => simp [cell?, ranks?, values, ranksOf?_cons_eq_some, Cell.ranks]
  | .row (x :: y :: z :: rest) =>
    simp [cell?, ranks?, values, ranksOf?_cons_eq_some, Cell.ranks]

/-- Places that are equal are the same cell, or both are none. -/
theorem cell?_congr (h : p.same q = true) : p.cell? = q.cell? := by
  unfold same at h
  cases hp : p.cell? with
  | some c =>
    cases hq : q.cell? with
    | some d => simpa [hp, hq] using h
    | none => simp [hp, hq] at h
  | none =>
    cases hq : q.cell? with
    | some d => simp [hp, hq] at h
    | none => rfl

theorem same_of_cell? {c : Cell} (hp : p.cell? = some c) (hq : q.cell? = some c) :
    p.same q = true := by
  simp [same, hp, hq]

theorem not_same_of_cell? (h : p.cell? ≠ q.cell?) : p.same q = false :=
  Bool.eq_false_iff.mpr fun hsame => h (cell?_congr hsame)

/-- A place with ranks is equal to just the places of these ranks. -/
theorem same_iff_ranks (h : p.ranks? = some r) : p.same q = true ↔ q.ranks? = some r := by
  unfold same
  cases hp : p.cell? with
  | some c =>
    obtain rfl : r = c.ranks := Option.some.inj (h.symm.trans (cell?_eq_some.mp hp))
    rw [← cell?_eq_some]
    cases q.cell? with
    | none => simp
    | some d => simp [Eq.comm (a := d)]
  | none =>
    cases hq : q.cell? with
    | none => exact sameAll_iff_ranks h
    | some d =>
      have hd : q.ranks? = some d.ranks := cell?_eq_some.mp hq
      have hdiffer : ¬ some d.ranks = some r := by
        rintro ⟨⟩
        rw [cell?_eq_some.mpr h] at hp
        cases hp
      simp [hd, hdiffer]

theorem exists_rank {value : Json} (h : value.same value = true)
    (hlist : ∀ items, value ≠ .list items) (hobject : ∀ members, value ≠ .object members) :
    ∃ x, value.rank? = some x := by
  cases hq : Quantity.ofJson? value with
  | some q =>
    rw [Json.same_number hq hq, Quantity.same_iff] at h
    obtain ⟨p, hp, -⟩ := h
    exact ⟨.inl p, by rw [Json.rank?_of_number hq, hp]; rfl⟩
  | none =>
    cases value with
    | null => exact ⟨_, rfl⟩
    | text s => exact ⟨_, rfl⟩
    | list items => exact absurd rfl (hlist items)
    | object members => exact absurd rfl (hobject members)
    | bool value => cases hq
    | whole value => cases hq
    | real value => cases hq

theorem exists_ranksOf {values : List Json} (h : Json.sameAll values values = true)
    (hlist : ∀ items, .list items ∉ values) (hobject : ∀ members, .object members ∉ values) :
    ∃ r, ranksOf? values = some r := by
  induction values with
  | nil => exact ⟨[], rfl⟩
  | cons value values ih =>
    simp only [Json.sameAll, Bool.and_eq_true] at h
    simp only [List.mem_cons, not_or] at hlist hobject
    obtain ⟨x, hx⟩ := exists_rank h.1 (fun items e => (hlist items).1 e.symm)
      (fun members e => (hobject members).1 e.symm)
    obtain ⟨rest, hrest⟩ :=
      ih h.2 (fun items => (hlist items).2) (fun members => (hobject members).2)
    exact ⟨x :: rest, ranksOf?_cons_eq_some.mpr ⟨x, rest, hx, hrest, rfl⟩⟩

/-- A place that can be noted and is equal to itself has ranks. -/
theorem exists_ranks (hkey : p.isKey = true) (hsame : p.same p = true) :
    ∃ r, p.ranks? = some r := by
  unfold same at hsame
  cases hp : p.cell? with
  | some c => exact ⟨c.ranks, cell?_eq_some.mp hp⟩
  | none =>
    rw [hp] at hsame
    unfold isKey at hkey
    rw [List.all_eq_true] at hkey
    exact exists_ranksOf hsame (fun _ hmem => by simpa using hkey _ hmem)
      (fun _ hmem => by simpa using hkey _ hmem)

/-- Whether everything in a place is a number. -/
def Numeric (p : Place) : Prop := ∀ value ∈ p.values, (Quantity.ofJson? value).isSome

theorem exists_line {values : List Json}
    (hnumeric : ∀ value ∈ values, (Quantity.ofJson? value).isSome)
    {r : List Rank} (h : ranksOf? values = some r) : ∃ line : List Line, r = line.map .inl := by
  induction values generalizing r with
  | nil => exact ⟨[], (Option.some.inj h).symm⟩
  | cons value values ih =>
    obtain ⟨x, rest, hx, hrest, rfl⟩ := ranksOf?_cons_eq_some.mp h
    rw [List.forall_mem_cons] at hnumeric
    obtain ⟨line, rfl⟩ := ih hnumeric.2 hrest
    obtain ⟨q, hq⟩ := Option.isSome_iff_exists.mp hnumeric.1
    rw [Json.rank?_of_number hq, Option.map_eq_some_iff] at hx
    obtain ⟨p, -, rfl⟩ := hx
    exact ⟨p :: line, rfl⟩

theorem line_cases (l l' : List Line) :
    (l.map .inl : List Rank) < l'.map .inl ∨ l = l' ∨ (l'.map .inl : List Rank) < l.map .inl := by
  induction l generalizing l' with
  | nil =>
    cases l' with
    | nil => exact .inr (.inl rfl)
    | cons y l' => exact .inl (List.nil_lt_cons _ _)
  | cons x l ih =>
    cases l' with
    | nil => exact .inr (.inr (List.nil_lt_cons _ _))
    | cons y l' =>
      simp only [List.map_cons, List.cons_lt_cons_iff, Sum.inl_lt_inl_iff, Sum.inl.injEq,
        List.cons.injEq]
      rcases lt_trichotomy x y with hlt | rfl | hgt
      · exact .inl (.inl hlt)
      · simpa using ih l'
      · exact .inr (.inr (.inl hgt))

/-- Of two places made of numbers one comes before the other, or they are equal. -/
theorem numeric_cases (hp : p.Numeric) (hq : q.Numeric) (h : p.ranks? = some r)
    (h' : q.ranks? = some s) : r < s ∨ r = s ∨ s < r := by
  obtain ⟨l, rfl⟩ := exists_line hp h
  obtain ⟨l', rfl⟩ := exists_line hq h'
  rcases line_cases l l' with hlt | rfl | hgt
  · exact .inl hlt
  · exact .inr (.inl rfl)
  · exact .inr (.inr hgt)

end Place

end MazeDuel
