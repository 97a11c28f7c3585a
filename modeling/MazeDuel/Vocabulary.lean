/-!
Finite vocabularies: types whose every value has one written word.
-/

namespace MazeDuel

class Vocabulary (α : Type) where
  kind : String
  all : List α
  word : α → String
  /-- No value lacks a word and no two share one. -/
  find_word : ∀ a, (all.find? fun b => word b == word a) = some a

export Vocabulary (word)

/-- The value that a word stands for; the spelling is exact. -/
def ofWord? [Vocabulary α] (text : String) : Option α :=
  (Vocabulary.all : List α).find? fun a => word a == text

@[simp] theorem ofWord?_word [Vocabulary α] (a : α) : ofWord? (word a) = some a :=
  Vocabulary.find_word a

/-- The word in capitals, as journal records name a value. -/
def capitals [Vocabulary α] (a : α) : String := String.ofList ((word a).toList.map Char.toUpper)

end MazeDuel
