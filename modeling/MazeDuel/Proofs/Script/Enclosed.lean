import MazeDuel.Proofs.Script.Arguments
import MazeDuel.Proofs.Script.Layout
/-!
Words as arguments. A word in which parentheses match and every semicolon stands inside some of them
is a single argument. So a list of such words is found again behind the semicolons that join it, and
a shot with these arguments has the modifiers that they name in front of the radar.
-/

namespace MazeDuel.Script

/-- A text that never closes more parentheses than are open, when `depth` of them are open before
it, that closes them all in the end, and that has semicolons only where some are open. -/
structure Enclosed (depth : Nat) (text : Token) : Prop where
  pending : ∀ part, part <+: text → part.count closeParen ≤ depth + part.count openParen
  matched : text.count closeParen = depth + text.count openParen
  inside : ∀ before behind, text = before ++ ';' :: behind →
    before.count closeParen < depth + before.count openParen

/-- A word that can stand between semicolons: enclosed in itself, with no blanks at its ends. -/
structure IsArgument (word : Token) : Prop where
  enclosed : Enclosed 0 word
  ne_nil : word ≠ []
  head : ∀ c ∈ word.head?, Text.isBlank c = false
  last : ∀ c ∈ word.getLast?, Text.isBlank c = false

/-- A word without the empty parentheses that it may have at its end. -/
def BareOf (word bare : Token) : Prop :=
  word = bare ++ [openParen, closeParen] ∨
    (word = bare ∧ ¬ [openParen, closeParen] <:+ word)

/-- Behind its first character a text is enclosed at the depth that this character leaves. -/
theorem enclosed_cons {depth depth' : Nat} {c : Char} {text : Token}
    (hdepth : depth + [c].count openParen = depth' + [c].count closeParen) :
    Enclosed depth (c :: text) ↔ (c = ';' → 0 < depth) ∧ Enclosed depth' text := by
  have hcount (x : Char) (part : Token) : (c :: part).count x = [c].count x + part.count x := by
    rw [← List.singleton_append, List.count_append]
  constructor
  · intro h
    refine ⟨fun hc => h.inside [] text (by rw [hc, List.nil_append]), ?_, ?_, ?_⟩
    · intro part hpart
      have hlong := h.pending (c :: part) (List.cons_prefix_cons.mpr ⟨rfl, hpart⟩)
      rw [hcount closeParen part, hcount openParen part] at hlong
      omega
    · have hlong := h.matched
      rw [hcount closeParen text, hcount openParen text] at hlong
      omega
    · intro before behind htext
      have hlong := h.inside (c :: before) behind (by rw [htext, List.cons_append])
      rw [hcount closeParen before, hcount openParen before] at hlong
      omega
  · rintro ⟨hc, h⟩
    constructor
    case pending =>
      intro part hpart
      obtain rfl | ⟨short, rfl, hshort⟩ := List.prefix_cons_iff.mp hpart
      · exact Nat.zero_le _
      · have hrest := h.pending short hshort
        rw [hcount closeParen short, hcount openParen short]
        omega
    case matched =>
      have hrest := h.matched
      rw [hcount closeParen text, hcount openParen text]
      omega
    case inside =>
      intro before behind htext
      cases before with
      | nil => exact hc (List.cons.inj htext).1
      | cons first before =>
        have hrest := h.inside before behind (List.cons.inj htext).2
        rw [← (List.cons.inj htext).1, hcount closeParen before, hcount openParen before]
        omega

/-- Counting along the text decides whether it is enclosed. -/
theorem enclosed_iff {depth : Nat} {text : Token} :
    Enclosed depth text ↔ isSealed depth text = true := by
  induction text generalizing depth with
  | nil =>
    rw [isSealed, beq_iff_eq]
    constructor
    · exact fun h => h.matched.symm
    · rintro rfl
      exact ⟨fun part hpart => by simp [List.prefix_nil.mp hpart], rfl, fun before behind h => by
        cases before <;> cases h⟩
  | cons c text ih =>
    rw [isSealed]
    by_cases ho : c = openParen
    · have hsemi : c ≠ ';' := by
        rw [ho]
        decide
      have hdepth : depth + [c].count openParen = depth + 1 + [c].count closeParen := by
        rw [ho]
        rfl
      rw [if_pos ho, enclosed_cons hdepth, ih]
      simp [hsemi]
    · have hopen : [c].count openParen = 0 := List.count_eq_zero.mpr (by simpa using Ne.symm ho)
      rw [if_neg ho]
      by_cases hp : c = closeParen
      · have hclose : [c].count closeParen = 1 := by
          rw [hp]
          rfl
        have hsemi : c ≠ ';' := by
          rw [hp]
          decide
        rw [if_pos hp, Bool.and_eq_true, bne_iff_ne]
        cases depth with
        | zero =>
          refine ⟨fun h => ?_, fun h => absurd rfl h.1⟩
          have hone := h.pending [c] (List.prefix_append [c] text)
          omega
        | succ depth =>
          have hdepth : depth + 1 + [c].count openParen = depth + [c].count closeParen := by omega
          rw [enclosed_cons hdepth, ih]
          simp [hsemi]
      · have hclose : [c].count closeParen = 0 := List.count_eq_zero.mpr (by simpa using Ne.symm hp)
        have hdepth : depth + [c].count openParen = depth + [c].count closeParen := by omega
        rw [if_neg hp, enclosed_cons hdepth, ih]
        by_cases hs : c = ';'
        · simp [hs, Nat.pos_iff_ne_zero]
        · simp [hs]

theorem trim_of_ends {text : Token} (hhead : ∀ c ∈ text.head?, Text.isBlank c = false)
    (hlast : ∀ c ∈ text.getLast?, Text.isBlank c = false) : Text.trim text = text := by
  have hfront : ([] ++ text).dropWhile Text.isBlank = text := dropWhile_joint rfl hhead
  have hback : ([] ++ text.reverse).dropWhile Text.isBlank = text.reverse := by
    refine dropWhile_joint rfl fun c hc => hlast c ?_
    rwa [List.head?_reverse] at hc
  rw [List.nil_append] at hfront hback
  rw [Text.trim, Text.trimOf, hfront, hback, List.reverse_reverse]

/-- Whether a word can be an argument is found out by counting and by a look at its ends. -/
theorem isArgument_iff {word : Token} : IsArgument word ↔
    isSealed 0 word = true ∧ word ≠ [] ∧ (word.head?.all fun c => !Text.isBlank c) = true ∧
      (word.getLast?.all fun c => !Text.isBlank c) = true := by
  simp only [Option.all_eq_true, Bool.not_eq_true']
  constructor
  · exact fun h => ⟨enclosed_iff.mp h.enclosed, h.ne_nil, h.head, h.last⟩
  · rintro ⟨hsealed, hne, hhead, hlast⟩
    exact ⟨enclosed_iff.mpr hsealed, hne, hhead, hlast⟩

instance (word : Token) : Decidable (IsArgument word) := decidable_of_iff' _ isArgument_iff

theorem bareOf_dropEmptyCall (word : Token) : BareOf word (dropEmptyCall word) := by
  unfold dropEmptyCall
  by_cases hcall : [openParen, closeParen] <:+ word
  · obtain ⟨bare, rfl⟩ := hcall
    have hlength : (bare ++ [openParen, closeParen]).length - 2 = bare.length := by simp
    refine .inl ?_
    rw [if_pos (List.isSuffixOf_iff_suffix.mpr (List.suffix_append bare _)), hlength,
      List.take_left]
  · refine .inr ⟨?_, hcall⟩
    rw [if_neg (mt List.isSuffixOf_iff_suffix.mp hcall)]

/-- Words that can be arguments are found again between the semicolons that join them. A shot with
these words for its arguments is none just if the radar is not among them, written as a call or not;
else its modifiers are those that are named before the first radar, in order. -/
theorem arguments_exact (words : List Token) (h : ∀ word ∈ words, IsArgument word) :
    splitArguments ([';'].intercalate words) = words ∧
      (∀ word ∈ words, BareOf word (dropEmptyCall word)) ∧
      ((shotModifiers ([';'].intercalate words)).value = none ↔
        radarWord ∉ words.map dropEmptyCall) ∧
      ∀ before behind, words.map dropEmptyCall = before ++ radarWord :: behind →
        radarWord ∉ before → (shotModifiers ([';'].intercalate words)).value =
          some (before.filterMap fun text => ofWord? (String.ofList text)) := by
  have hsplit : splitArguments ([';'].intercalate words) = words := splitArguments_joined
    (fun word hw => enclosed_iff.mp (h word hw).enclosed)
    (fun word hw => trim_of_ends (h word hw).head (h word hw).last)
    (fun word hw => (h word hw).ne_nil)
  have hwords : argumentWords ([';'].intercalate words) = words.map dropEmptyCall := by
    rw [argumentWords, hsplit]
  refine ⟨hsplit, fun word _ => bareOf_dropEmptyCall word, ?_, ?_⟩
  · rw [value_shotModifiers, hwords]
    by_cases hradar : radarWord ∈ words.map dropEmptyCall
    · rw [if_pos hradar]
      exact ⟨nofun, fun hnone => absurd hradar hnone⟩
    · rw [if_neg hradar]
      exact ⟨fun _ => hradar, fun _ => rfl⟩
  · intro before behind hbare hbefore
    have hradar : radarWord ∈ words.map dropEmptyCall := by
      rw [hbare]
      exact List.mem_append_right before List.mem_cons_self
    have hfront : (words.map dropEmptyCall).takeWhile (· ≠ radarWord) = before := by
      rw [hbare, List.takeWhile_append_of_pos]
      · simp
      · intro text htext
        have hne : text ≠ radarWord := fun heq => hbefore (heq ▸ htext)
        simpa using hne
    rw [value_shotModifiers, hwords, if_pos hradar, hfront]

/-- A nested call with a semicolon in it is one argument, and no modifier; what is named behind the
radar does not count. -/
theorem arguments_exact_nested :
    let words := ["Aim(far;(left))".toList, "TurnLeft()".toList, "Radar()".toList, "MoveUp".toList]
    let joined := "Aim(far;(left));TurnLeft();Radar();MoveUp".toList
    (∀ word ∈ words, IsArgument word) ∧ [';'].intercalate words = joined ∧
      splitArguments joined = words ∧
      words.map dropEmptyCall = ["Aim(far;(left))".toList, "TurnLeft".toList] ++ radarWord ::
        ["MoveUp".toList] ∧
      (shotModifiers joined).value = some [.turnLeft] := by
  intro words joined
  have hwords : ∀ word ∈ words, IsArgument word := by decide +kernel
  obtain ⟨hsplit, -, -, hshot⟩ := arguments_exact words hwords
  have hbare : words.map dropEmptyCall =
      ["Aim(far;(left))".toList, "TurnLeft".toList] ++ radarWord :: ["MoveUp".toList] := by
    decide +kernel
  exact ⟨hwords, rfl, hsplit, hbare, hshot _ _ hbare (by decide)⟩

end MazeDuel.Script
