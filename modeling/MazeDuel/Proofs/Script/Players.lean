import MazeDuel.Script.Given
/-!
The player of a program: however a script is given, all of its actions are bound to the player that
it is read for.
-/

namespace MazeDuel.Script

/-- Whether all actions that came out, if any did, are bound to a player. -/
def BoundTo (player : Player) (x : Except Fault (List Action)) : Prop :=
  ∀ actions, x = .ok actions → ∀ a ∈ actions, a.player = player

theorem boundTo_error (player : Player) (fault : Fault) : BoundTo player (.error fault) := by
  intro actions h
  cases h

theorem boundTo_nil (player : Player) : BoundTo player (.ok []) := by
  intro actions h
  cases h
  simp

theorem resolve_player (player : Player) (token : Token) (a : Action)
    (h : (resolve player token).value = some a) : a.player = player := by
  unfold resolve at h
  dsimp only at h
  split at h
  · cases h
  · split at h
    · split at h
      · cases h
        rfl
      · cases h
    · split at h
      · cases h
        rfl
      · split at h
        · split at h
          · cases h
          · simp only [Logged.value_bind] at h
            split at h
            · cases h
              rfl
            · cases h
        · cases h

theorem boundTo_repeatBody (player : Player) (opener : Token) (count : Nat) (body : List Action)
    (h : BoundTo player (.ok body)) :
    BoundTo player (repeatBody player opener count body).value := by
  rw [value_repeatBody]
  split
  · split
    · exact boundTo_error player _
    · exact boundTo_nil player
  · intro actions ha a hmem
    cases ha
    obtain ⟨copy, hcopy, hin⟩ := List.mem_flatten.mp hmem
    rw [List.eq_of_mem_replicate hcopy] at hin
    exact h body rfl a hin

mutual

theorem boundTo_unroll (player : Player) : (block : Block) →
    BoundTo player (block.unroll player).value
  | .statement token => by
    intro actions h a ha
    unfold Block.unroll at h
    cases h
    exact resolve_player player token a (Option.mem_toList.mp ha)
  | .repeated opener body => by
    unfold Block.unroll
    simp only [Logged.value_bind]
    split
    · exact boundTo_error player _
    · simp only [reduceCtorEq, if_false, Option.map_none, Logged.value_bind]
      split
      · exact boundTo_error player _
      · rename_i actions hb
        refine boundTo_repeatBody player opener _ actions ?_
        rw [← hb]
        exact boundTo_unrollAll player body

theorem boundTo_unrollAll (player : Player) : (blocks : List Block) →
    BoundTo player (unrollAll player blocks).value
  | [] => boundTo_nil player
  | block :: rest => by
    unfold unrollAll
    simp only [Logged.value_bind]
    split
    · exact boundTo_error player _
    · rename_i first hf
      simp only [Logged.value_bind]
      split
      · exact boundTo_error player _
      · rename_i more hm
        intro actions h a ha
        cases h
        rcases List.mem_append.mp ha with ha | ha
        · exact boundTo_unroll player block first hf a ha
        · exact boundTo_unrollAll player rest more hm a ha

end

theorem boundTo_parseTokens (player : Player) (tokens : List Token) :
    BoundTo player (parseTokens player tokens).value := by
  unfold parseTokens parseSequence
  have hall := boundTo_unrollAll player (blocks tokens).1.1
  simp only [Logged.value_bind, Logged.value_map]
  cases hu : (unrollAll player (blocks tokens).1.1).value with
  | error fault => exact boundTo_error player fault
  | ok actions =>
    rw [hu] at hall
    simp only [Except.map]
    split
    · exact hall
    · exact hall

/-- The actions of a script act for the player that it is read for. -/
theorem boundTo_parseGiven (player : Player) (script : Json) :
    BoundTo player (parseGiven player script).value := by
  unfold parseGiven
  split
  · exact boundTo_parseTokens player _
  · simp only [Logged.value_bind]
    split
    · rename_i scraps _
      unfold parseScraps
      split
      · exact boundTo_error player _
      · exact boundTo_parseTokens player _
    · exact boundTo_error player _
  · dsimp only [Logged.value_pure]
    split
    · exact boundTo_error player _
    · exact boundTo_nil player

end MazeDuel.Script
