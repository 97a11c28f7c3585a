import MazeDuel.Script.Program
/-!
The arguments of a call: words with semicolons between them. A semicolon inside parentheses belongs
to its word, so words whose parentheses match are split again just where they were joined. Of the
words of a shot those before the radar count, as far as they are modifiers.
-/

namespace MazeDuel.Script

/-- Whether all parentheses of a text match, when `depth` of them are open before it, and every
semicolon stands inside some. -/
def isSealed (depth : Nat) : List Char → Bool
  | [] => depth == 0
  | c :: rest =>
    if c = openParen then isSealed (depth + 1) rest
    else if c = closeParen then depth != 0 && isSealed (depth - 1) rest
    else if c = ';' then depth != 0 && isSealed depth rest
    else isSealed depth rest

theorem foldr_consPiece (word : Token) (more : List Token) :
    word.foldr consPiece ([] :: more) = word :: more := by
  induction word with
  | nil => rfl
  | cons c word ih => rw [List.foldr_cons, ih, consPiece]

/-- A sealed word is not split, and behind it splitting starts afresh. -/
theorem pieces_sealed {depth : Nat} {word : Token} (h : isSealed depth word = true)
    (behind : List Char) :
    pieces depth (word ++ behind) = word.foldr consPiece (pieces 0 behind) := by
  induction word generalizing depth with
  | nil =>
    have hdepth : depth = 0 := by simpa [isSealed] using h
    rw [hdepth, List.nil_append, List.foldr_nil]
  | cons c word ih =>
    rw [isSealed] at h
    rw [List.cons_append, List.foldr_cons, pieces]
    by_cases ho : c = openParen
    · rw [if_pos ho] at h
      have hsemi : ¬ (c = ';' ∧ depth + 1 = 0) := by simp
      simp only [if_pos ho, if_neg hsemi, ih h]
    · rw [if_neg ho] at h
      by_cases hp : c = closeParen
      · rw [if_pos hp, Bool.and_eq_true] at h
        have hsemi : ¬ (c = ';' ∧ depth - 1 = 0) := by
          rw [hp]
          simp [closeParen]
        simp only [if_neg ho, if_pos hp, if_neg hsemi, ih h.2]
      · rw [if_neg hp] at h
        by_cases hs : c = ';'
        · rw [if_pos hs, Bool.and_eq_true, bne_iff_ne] at h
          have hsemi : ¬ (c = ';' ∧ depth = 0) := fun hc => h.1 hc.2
          simp only [if_neg ho, if_neg hp, if_neg hsemi, ih h.2]
        · rw [if_neg hs] at h
          have hsemi : ¬ (c = ';' ∧ depth = 0) := fun hc => hs hc.1
          simp only [if_neg ho, if_neg hp, if_neg hsemi, ih h]

theorem pieces_semicolon (rest : List Char) : pieces 0 (';' :: rest) = [] :: pieces 0 rest := by
  have hopen : ';' ≠ openParen := by decide
  have hclose : ';' ≠ closeParen := by decide
  simp [pieces, hopen, hclose]

theorem pieces_joined {words : List Token} (hne : words ≠ [])
    (h : ∀ word ∈ words, isSealed 0 word = true) : pieces 0 ([';'].intercalate words) = words := by
  induction words with
  | nil => exact absurd rfl hne
  | cons word rest ih =>
    have hword := pieces_sealed (h word List.mem_cons_self)
    cases rest with
    | nil =>
      have halone := hword []
      rw [List.append_nil, pieces, foldr_consPiece] at halone
      rw [List.intercalate_singleton, halone]
    | cons next rest =>
      have hrest := ih (List.cons_ne_nil next rest) fun w hw => h w (List.mem_cons_of_mem _ hw)
      rw [List.intercalate_cons_cons, List.append_assoc, List.singleton_append, hword,
        pieces_semicolon, foldr_consPiece, hrest]

/-- Sealed words without blanks at their ends are found again between the semicolons. -/
theorem splitArguments_joined {words : List Token}
    (hsealed : ∀ word ∈ words, isSealed 0 word = true)
    (htrim : ∀ word ∈ words, Text.trim word = word) (hne : ∀ word ∈ words, word ≠ []) :
    splitArguments ([';'].intercalate words) = words := by
  by_cases h : words = []
  · rw [h]
    rfl
  · have hmap : words.map Text.trim = words := by
      rw [List.map_congr_left htrim, List.map_id']
    have hfilter : words.filter (!·.isEmpty) = words :=
      List.filter_eq_self.mpr fun word hw => by simp [hne word hw]
    rw [splitArguments, pieces_joined h hsealed, hmap, hfilter]

/-- What is reported of a word that is no modifier does not change what the others are. -/
theorem value_knownModifiers (texts : List Token) :
    (knownModifiers texts).value = texts.filterMap fun text => ofWord? (String.ofList text) := by
  induction texts with
  | nil => rfl
  | cons text rest ih =>
    rw [knownModifiers, List.filterMap_cons]
    cases hword : (ofWord? (String.ofList text) : Option Modifier) with
    | none => exact ih
    | some m =>
      rw [Logged.value_map, ih]

theorem value_shotModifiers (args : Token) :
    (shotModifiers args).value =
      if radarWord ∈ argumentWords args then
        some (((argumentWords args).takeWhile (· ≠ radarWord)).filterMap fun text =>
          ofWord? (String.ofList text))
      else none := by
  unfold shotModifiers
  by_cases h : radarWord ∈ argumentWords args
  · have hcontains : (argumentWords args).contains radarWord = true := List.contains_iff_mem.mpr h
    have hvalue := value_knownModifiers ((argumentWords args).takeWhile (· ≠ radarWord))
    simp only [hcontains, if_true, if_pos h]
    split <;> rw [← hvalue] <;> rfl
  · have hcontains : ¬ (argumentWords args).contains radarWord = true :=
      mt List.contains_iff_mem.mp h
    simp only [if_neg hcontains, if_neg h, Logged.value_pure]

theorem splitCall_call {name : Token} (args : Token) (h : openParen ∉ name) :
    splitCall (name ++ openParen :: (args ++ [closeParen])) = (name, some args) := by
  have hname : ∀ c ∈ name, decide (c ≠ openParen) = true := by
    intro c hc
    have hne : c ≠ openParen := fun heq => h (heq ▸ hc)
    simp [hne]
  have hdrop : (name ++ openParen :: (args ++ [closeParen])).dropWhile (· ≠ openParen) =
      openParen :: (args ++ [closeParen]) := by
    rw [List.dropWhile_append_of_pos hname]
    simp
  have htake : (name ++ openParen :: (args ++ [closeParen])).takeWhile (· ≠ openParen) = name := by
    rw [List.takeWhile_append_of_pos hname]
    simp
  have hclose : dropClose (args ++ [closeParen]) = args := by
    simp [dropClose]
  simp only [splitCall, hdrop, htake, hclose]

theorem not_isUnterminated_call (name args : Token) :
    isUnterminated (name ++ openParen :: (args ++ [closeParen])) = false := by
  have hlast : (name ++ openParen :: (args ++ [closeParen])).getLast? = some closeParen := by
    rw [← List.cons_append, ← List.append_assoc, List.getLast?_concat]
  simp [isUnterminated, hlast]

/-- A call with arguments is a shot or nothing. -/
theorem value_resolve_call (player : Player) {name args : Token} (h : openParen ∉ name)
    (hargs : args ≠ []) :
    (resolve player (name ++ openParen :: (args ++ [closeParen]))).value =
      if name = shootWord then
        (shotModifiers args).value.map fun modifiers => ⟨player, .shoot modifiers⟩
      else none := by
  have hbare : args.isEmpty = false := by simpa using hargs
  unfold resolve
  rw [not_isUnterminated_call, splitCall_call args h]
  simp only [Option.getD_some, hbare, Bool.false_eq_true, if_false, and_false]
  by_cases hshoot : name = shootWord
  · have hmove : moveOf? name = none := by
      rw [hshoot]
      decide
    simp only [hmove, if_pos hshoot, Logged.value_bind]
    cases (shotModifiers args).value <;> rfl
  · simp only [if_neg hshoot]
    cases moveOf? name <;> rfl

/-- A shot stands for an action just if its words name the radar. -/
theorem value_resolve_shot (player : Player) {args : Token} (h : radarWord ∈ argumentWords args) :
    (resolve player (shootWord ++ openParen :: (args ++ [closeParen]))).value =
      (shotModifiers args).value.map fun modifiers => ⟨player, .shoot modifiers⟩ := by
  have hargs : args ≠ [] := by
    rintro rfl
    exact absurd h (by decide)
  rw [value_resolve_call player (by decide) hargs, if_pos rfl]

end MazeDuel.Script
