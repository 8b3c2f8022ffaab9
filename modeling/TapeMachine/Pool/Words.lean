import TapeMachine.Quantity

set_option autoImplicit false

namespace TapeMachine

def wordsOfLength (symbols : List Text) : Nat → List Text
  | 0 => [[]]
  | n + 1 =>
      let shorter := wordsOfLength symbols n
      symbols.flatMap fun s => shorter.map (s ++ ·)

def lengthsBetween (low high : Int) : List Int := (List.range (high - low + 1).toNat).map fun (i : Nat) => low + i

structure WordList where
  words : List Text := []
  ends : Except QuantityFault Unit := .ok ()

def WordList.extend [Memory] (symbols : List Text) (words : List Text) (low : Int) : Nat → WordList
  | 0 => { words }
  | count + 1 =>
      match Quantity.wordLength low with
      | .error fault => { words, ends := .error fault }
      | .ok n => extend symbols (words ++ wordsOfLength symbols n) (low + 1) count

/-- The words with a length in the range. -/
def WordList.between [Memory] (symbols : List Text) (low high : Int) : WordList :=
  extend symbols [] low (high - low + 1).toNat

def wordsBetween [Memory] (symbols : List Text) (low high : Int) : Except QuantityFault (List Text) :=
  let listed := WordList.between symbols low high
  listed.ends.map fun _ => listed.words

@[simp] theorem words_of_length_count (symbols : List Text) (n : Nat) :
    (wordsOfLength symbols n).length = symbols.length.pow n := by
  induction n with
  | zero => rfl
  | succ n ih =>
      simp only [wordsOfLength, List.length_flatMap, List.length_map, ih]
      rw [List.map_const', List.sum_replicate_nat]
      exact Nat.mul_comm _ _

end TapeMachine
