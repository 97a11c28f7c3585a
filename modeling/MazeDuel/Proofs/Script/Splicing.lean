import MazeDuel.Proofs.Script.Canonical
/-!
Texts that are put together. Two scripts with a semicolon between them have the tokens of both,
unless the first one leaves a call open; and a blank makes no difference where it does not part a
name.
-/

namespace MazeDuel.Script

/-- Either all parentheses of a script match, and with a semicolon behind it any other script can
follow; or the last token, and no other, is not closed, and the tokens before it stand whatever
follows. -/
theorem tokens_append (first : List Char) :
    (∀ token ∈ tokens first, Matched token) ∧
        (∀ more, tokens (first ++ ';' :: more) = tokens first ++ tokens more) ∨
      ∃ before last, tokens first = before ++ [last] ∧
        (∀ token ∈ before, Matched token) ∧ Unclosed last ∧
        ∀ more, before <+: tokens (first ++ more) := by
  obtain ⟨hfound, hsound⟩ := Mode.finds_walk first
  have hbefore : ∀ token ∈ (Mode.idle.walk first).1, Matched token := fun token htoken =>
    (hfound token htoken).matched
  simp only [tokens_eq_run]
  -- a semicolon completes a token unless the scanner stands in the arguments of a call
  cases hcall : (Mode.idle.walk first).2.isCall with
  | false =>
    refine .inl ⟨fun token htoken => ?_, Mode.run_semicolon hcall⟩
    rcases List.mem_append.mp htoken with htoken | htoken
    · exact hbefore token htoken
    · exact (hsound.shaped hcall token (Option.mem_toList.mp htoken)).matched
  | true =>
    obtain ⟨last, hlast, hcut⟩ := hsound.cutShort hcall
    refine .inr ⟨(Mode.idle.walk first).1, last, ?_, hbefore, hcut.unclosed, fun more => ?_⟩
    · rw [Mode.run, hlast, Option.toList_some]
    · rw [Mode.run_append]
      exact List.prefix_append _ _

/-- Whether a place in a text lies in a name or a number: between two name characters. -/
def InsideWord (before after : List Char) : Prop :=
  ∃ b ∈ before.getLast?, ∃ a ∈ after.head?, isNameChar b = true ∧ isNameChar a = true

namespace Mode

theorem start_name {c : Char} {text : Token} (h : (start c).2 = name text) :
    isNameChar c = true := by
  unfold start at h
  split at h
  · cases h
  · split at h
    · next hname => exact nameChar_of_nameStart hname
    · cases h

theorem afterName_name {word text : Token} {c : Char} (h : (afterName word c).2 = name text) :
    isNameChar c = true := by
  unfold afterName at h
  split at h
  · cases h
  · split at h
    · cases h
    · exact start_name h

theorem close_ne_name (word inner text : Token) : (close word inner).2 ≠ name text := by
  unfold close
  split <;> nofun

theorem next_name {mode : Mode} {c : Char} {text : Token} (h : (mode.next c).2 = name text) :
    isNameChar c = true := by
  cases mode with
  | idle => exact start_name h
  | name word =>
    rw [next] at h
    split at h
    · assumption
    · exact afterName_name h
  | named word => exact afterName_name h
  | call word inner depth =>
    rw [next] at h
    split at h
    · cases h
    · split at h
      · cases h
      · split at h
        · split at h
          · exact absurd h (close_ne_name word _ text)
          · cases h
        · cases h
  | called word =>
    rw [next] at h
    split at h
    · cases h
    · split at h
      · cases h
      · exact start_name h

/-- The scanner stands in a name only behind a name character. -/
theorem walk_name_last {before : List Char} {text : Token}
    (h : (idle.walk before).2 = name text) : ∃ b ∈ before.getLast?, isNameChar b = true := by
  rcases List.eq_nil_or_concat before with rfl | ⟨init, b, hbefore⟩
  · cases h
  · rw [List.concat_eq_append] at hbefore
    subst hbefore
    rw [walk_concat] at h
    exact ⟨b, by rw [List.getLast?_concat]; rfl, next_name h⟩

end Mode

/-- A blank between two characters that are not both name characters changes no token. -/
theorem tokens_insert_blank {before after : List Char} {c : Char} (hc : Text.isBlank c = true)
    (h : ¬ InsideWord before after) :
    tokens (before ++ c :: after) = tokens (before ++ after) := by
  rw [tokens_eq_run, tokens_eq_run, Mode.run_append, Mode.run_append, Mode.run_blank _ after hc]
  -- elsewhere than in a name the scanner stays where it is
  cases hmode : (Mode.idle.walk before).2 with
  | name text =>
    obtain ⟨b, hb, hword⟩ := Mode.walk_name_last hmode
    have hafter : ∀ a ∈ after.head?, isNameChar a = false := fun a ha =>
      Bool.eq_false_iff.mpr fun hname => h ⟨b, hb, a, ha, hword, hname⟩
    rw [Mode.past, Mode.run_named text hafter]
  | _ => rfl

/-- A wide blank before the brace of a block. -/
theorem tokens_before_brace :
    Text.isBlank '\u2003' = true ∧ ¬ InsideWord "Repeat(3)".toList "\x7bShoot( Radar)\x7d".toList ∧
      tokens ("Repeat(3)".toList ++ '\u2003' :: "\x7bShoot( Radar)\x7d".toList) =
        tokens ("Repeat(3)".toList ++ "\x7bShoot( Radar)\x7d".toList) := by
  have hblank : Text.isBlank '\u2003' = true := by decide
  have hplace : ¬ InsideWord "Repeat(3)".toList "\x7bShoot( Radar)\x7d".toList := by
    rintro ⟨b, hb, -, -, hname, -⟩
    cases hb
    exact absurd hname (by decide)
  exact ⟨hblank, hplace, tokens_insert_blank hblank hplace⟩

end MazeDuel.Script
