import MazeDuel.Proofs.Script.Arguments
import MazeDuel.Proofs.Script.Unrolling
/-!
Labels of actions. A label is a statement of a script, and it stands for the action that it was
written for: joined with semicolons, the labels of some actions are a script of just these actions.
An action is read back from its document as well.
-/

namespace MazeDuel

theorem mapM_readWord [Vocabulary α] (items : List α) :
    (items.map wordJson).mapM readWord = (.ok items : Except Fault (List α)) := by
  induction items with
  | nil => rfl
  | cons a rest ih =>
    rw [List.map_cons, List.mapM_cons, readWord_wordJson, ih]
    rfl

theorem Command.ofParams_params (c : Command) : ofParams c.params c.kind = .ok c := by
  cases c with
  | move dir => cases dir <;> rfl
  | wait => rfl
  | shoot modifiers =>
    show (List.mapM readWord (modifiers.map wordJson) >>= fun found =>
      Except.ok (shoot found)) = .ok (shoot modifiers)
    rw [mapM_readWord]
    rfl

theorem Action.ofJson_toJson (a : Action) : ofJson a.toJson = .ok a := by
  have hplayer : readWord (wordJson a.player) = (.ok a.player : Except Fault Player) :=
    readWord_wordJson a.player
  have hkind : readWord (wordJson a.command.kind) = (.ok a.command.kind : Except Fault _) :=
    readWord_wordJson a.command.kind
  show (readWord (wordJson a.player) >>= fun player => readWord (wordJson a.command.kind) >>=
    fun kind => Command.ofParams a.command.params kind >>= fun command =>
      Except.ok ⟨player, command⟩) = .ok a
  rw [hplayer, hkind]
  show (Command.ofParams a.command.params a.command.kind >>= fun command =>
    Except.ok ⟨a.player, command⟩) = .ok a
  rw [Command.ofParams_params]
  rfl

namespace Script

def modifierWord (m : Modifier) : Token := (word m).toList

/-- What stands between the parentheses of a shot. -/
def shotWords (modifiers : List Modifier) : List Token :=
  modifiers.map modifierWord ++ [radarWord]

/-- A word of a shot is closed in itself, has no blanks and is not written as a call. -/
structure Plain (text : Token) : Prop where
  isSealed : isSealed 0 text = true
  trim : Text.trim text = text
  ne_nil : text ≠ []
  dropEmptyCall : dropEmptyCall text = text

theorem plain_modifierWord (m : Modifier) : Plain (modifierWord m) := by
  rcases m with _ | _ | dir
  · exact ⟨by decide, by decide, by decide, by decide⟩
  · exact ⟨by decide, by decide, by decide, by decide⟩
  · cases dir <;> exact ⟨by decide, by decide, by decide, by decide⟩

theorem plain_radarWord : Plain radarWord := ⟨by decide, by decide, by decide, by decide⟩

theorem plain_shotWords {modifiers : List Modifier} {text : Token}
    (h : text ∈ shotWords modifiers) : Plain text := by
  rcases List.mem_append.mp h with h | h
  · obtain ⟨m, -, rfl⟩ := List.mem_map.mp h
    exact plain_modifierWord m
  · rw [List.mem_singleton.mp h]
    exact plain_radarWord

theorem modifierWord_ne_radarWord (m : Modifier) : modifierWord m ≠ radarWord := by
  rcases m with _ | _ | dir
  · decide
  · decide
  · cases dir <;> decide

def shotText (modifiers : List Modifier) : Token := [';'].intercalate (shotWords modifiers)

theorem argumentWords_shotText (modifiers : List Modifier) :
    argumentWords (shotText modifiers) = shotWords modifiers := by
  have hsplit : splitArguments (shotText modifiers) = shotWords modifiers := splitArguments_joined
    (fun text h => (plain_shotWords h).isSealed) (fun text h => (plain_shotWords h).trim)
    (fun text h => (plain_shotWords h).ne_nil)
  rw [argumentWords, hsplit, List.map_congr_left fun text h =>
    (plain_shotWords h).dropEmptyCall, List.map_id']

/-- The modifiers of a shot are read back from its words. -/
theorem shotModifiers_shotText (modifiers : List Modifier) :
    (shotModifiers (shotText modifiers)).value = some modifiers := by
  have hradar : radarWord ∈ shotWords modifiers := by simp [shotWords]
  have hbefore : (shotWords modifiers).takeWhile (· ≠ radarWord) = modifiers.map modifierWord := by
    rw [shotWords, List.takeWhile_append_of_pos]
    · simp
    · intro text h
      obtain ⟨m, -, rfl⟩ := List.mem_map.mp h
      simpa using modifierWord_ne_radarWord m
  have hword : ∀ m, ofWord? (String.ofList (modifierWord m)) = some m := fun m => by
    rw [modifierWord, String.ofList_toList, ofWord?_word]
  rw [value_shotModifiers, argumentWords_shotText, if_pos hradar, hbefore, List.filterMap_map]
  simp only [Function.comp_def, hword, List.filterMap_some]

theorem shotText_cons (m : Modifier) (rest : List Modifier) :
    shotText (m :: rest) = modifierWord m ++ ';' :: shotText rest := by
  have hne : shotWords rest ≠ [] := by simp [shotWords]
  show [';'].intercalate (modifierWord m :: shotWords rest) = _
  rw [List.intercalate_cons_of_ne_nil hne, List.append_assoc, List.singleton_append, shotText]

theorem mem_shotText {modifiers : List Modifier} {c : Char} (h : c ∈ shotText modifiers) :
    isNameChar c = true ∨ c = ';' := by
  have hradar : radarWord.all isNameChar = true := by decide
  have hword : ∀ m, (modifierWord m).all isNameChar = true := by
    intro m
    rcases m with _ | _ | dir
    · decide
    · decide
    · cases dir <;> decide
  induction modifiers with
  | nil => exact .inl (List.all_eq_true.mp hradar c (by simpa [shotText, shotWords] using h))
  | cons m rest ih =>
    rw [shotText_cons] at h
    rcases List.mem_append.mp h with h | h
    · exact .inl (List.all_eq_true.mp (hword m) c h)
    · rcases List.mem_cons.mp h with h | h
      · exact .inr h
      · exact ih h

theorem balanced_shotText (modifiers : List Modifier) :
    isBalanced 0 (shotText modifiers) = true := by
  apply balanced_bare
  intro c hc
  rcases mem_shotText hc with h | rfl
  · constructor
    · rintro rfl
      exact absurd h (by decide)
    · rintro rfl
      exact absurd h (by decide)
  · decide

theorem compact_shotText (modifiers : List Modifier) :
    (shotText modifiers).all notBlank = true := by
  apply List.all_eq_true.mpr
  intro c hc
  rcases mem_shotText hc with h | rfl
  · cases hblank : Text.isBlank c with
    | false => simp [notBlank, hblank]
    | true =>
      rw [nameChar_blank hblank] at h
      cases h
  · decide

/-- The statement that the label of a command writes. -/
def labelled : Command → Statement
  | .move dir => .leaf ⟨dir.token.toList, by cases dir <;> decide⟩ none
  | .wait => .leaf ⟨waitWord, by decide⟩ none
  | .shoot modifiers =>
    .leaf ⟨shootWord, by decide⟩
      (some ⟨shotText modifiers, balanced_shotText modifiers, compact_shotText modifiers⟩)

theorem label_shoot (modifiers : List Modifier) :
    (Command.shoot modifiers).label.toList =
      shootWord ++ openParen :: (shotText modifiers ++ [closeParen]) := by
  have hwords : (modifiers.map fun m => word m ++ ";").flatMap String.toList ++ radarWord =
      shotText modifiers := by
    induction modifiers with
    | nil => rfl
    | cons m rest ih =>
      rw [shotText_cons, ← ih]
      simp [modifierWord]
  rw [← hwords]
  simp [Command.label, shootWord, openParen, radarWord, closeParen]

theorem written_label (c : Command) : (labelled c).Written c.label.toList := by
  cases c with
  | move dir => exact .name _
  | wait => exact .name _
  | shoot modifiers =>
    have hinside : (shotText modifiers).filter notBlank = shotText modifiers :=
      List.filter_eq_self.mpr (List.all_eq_true.mp (compact_shotText modifiers))
    rw [label_shoot]
    exact .call _ _ [] (shotText modifiers) rfl hinside

/-- The labels of some commands with semicolons between them are a layout of their statements. -/
theorem written_labels (commands : List Command) :
    WrittenAll (commands.map labelled)
      ([';'].intercalate (commands.map fun c => c.label.toList)) := by
  induction commands with
  | nil => exact .nil
  | cons c rest ih =>
    cases rest with
    | nil =>
      have hlast := WrittenAll.cons (labelled c) [] _ [] [] (written_label c) rfl nofun .nil
      simpa using hlast
    | cons next rest =>
      simp only [List.map_cons, List.intercalate_cons_cons, List.append_assoc] at ih ⊢
      exact .cons _ _ _ [';'] _ (written_label c) (by decide) (fun _ => List.cons_ne_nil _ _) ih

theorem meaning_labelled (player : Player) (c : Command) :
    (labelled c).meaning player = [⟨player, c⟩] := by
  cases c with
  | move dir => cases player <;> cases dir <;> decide
  | wait => cases player <;> decide
  | shoot modifiers =>
    have hradar : radarWord ∈ argumentWords (shotText modifiers) := by
      rw [argumentWords_shotText]
      simp [shotWords]
    have hshot := value_resolve_shot player hradar
    rw [shotModifiers_shotText] at hshot
    simp only [labelled, Statement.meaning, leafToken, hshot]
    rfl

theorem meaningAll_labelled (player : Player) (commands : List Command) :
    meaningAll player (commands.map labelled) = commands.map (Action.mk player) := by
  induction commands with
  | nil => rfl
  | cons c rest ih => rw [List.map_cons, meaningAll, meaning_labelled, ih, List.map_cons,
      List.singleton_append]

theorem countableAll_labelled (player : Player) (commands : List Command) :
    CountableAll player (commands.map labelled) := by
  induction commands with
  | nil => exact trivial
  | cons c rest ih => cases c <;> exact ⟨trivial, ih⟩

/-- The labels of a player's actions, with semicolons between them, are a script of just these
actions, and each action is read back from its document. -/
theorem parse_labels (player : Player) (actions : List Action)
    (h : ∀ a ∈ actions, a.player = player) :
    (parse player (";".intercalate (actions.map Action.label))).value = .ok actions ∧
      ∀ a ∈ actions, Action.ofJson a.toJson = .ok a := by
  have hactions : (actions.map Action.command).map (Action.mk player) = actions := by
    rw [List.map_map, List.map_congr_left (g := id), List.map_id]
    intro a ha
    rw [← h a ha]
    rfl
  have htext : (";".intercalate (actions.map Action.label)).toList =
      [';'].intercalate ((actions.map Action.command).map fun c => c.label.toList) := by
    simp [Function.comp_def, Action.label]
  have hlaid : LaidOut ((actions.map Action.command).map labelled)
      (";".intercalate (actions.map Action.label)).toList :=
    ⟨[], _, rfl, written_labels (actions.map Action.command), htext⟩
  have hparse := parse_of_tokens player _ _ hlaid.tokens (countableAll_labelled player _)
  rw [meaningAll_labelled, hactions] at hparse
  exact ⟨hparse, fun a _ => a.ofJson_toJson⟩

/-- Two shots, one of them without modifiers, between a step and a pause. -/
def volley : List Action :=
  [⟨.b, .move .left⟩, ⟨.b, .shoot [.turnLeft, .move .up]⟩, ⟨.b, .shoot []⟩, ⟨.b, .wait⟩]

theorem parse_volley : (∀ a ∈ volley, a.player = .b) ∧
    (parse .b "MoveLeft;Shoot(TurnLeft;MoveUp;Radar);Shoot(Radar);Wait").value = .ok volley ∧
    ∀ a ∈ volley, Action.ofJson a.toJson = .ok a := by
  have hplayer : ∀ a ∈ volley, a.player = .b := by decide
  have hlabels : ";".intercalate (volley.map Action.label) =
      "MoveLeft;Shoot(TurnLeft;MoveUp;Radar);Shoot(Radar);Wait" := by decide
  exact ⟨hplayer, hlabels ▸ parse_labels .b volley hplayer⟩

end Script

end MazeDuel
