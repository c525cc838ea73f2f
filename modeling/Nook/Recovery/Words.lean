import Nook.EventLog.Text
import Nook.Lib.ByteCut
import Nook.Lib.Loop

set_option autoImplicit false

namespace Nook.Recovery

open Nook.Lib Nook.EventLog

/-- Unicode lower-casing, which the standard library does. -/
class Casing where
  toLowercase : Str → Str

/-- Lower-casing leaves white space alone and lowers the ASCII letters. -/
def AsciiCasing [Casing] : Prop :=
  ∀ text : Str, (∀ char ∈ text, char.toNat < 128 ∨ isWhitespace char = true) →
    Casing.toLowercase text = text.map Char.toLower

/-! ### The list -/

/-- The list's words in their published order, as the vendored list has them. -/
structure WordList where
  words : List Str
  distinct : words.Nodup
  lowercase : ∀ word ∈ words, word ≠ [] ∧ ∀ char ∈ word, char.isLower = true
  /-- Every position is a `u16`. -/
  small : words.length ≤ 2 ^ 16

/-- The length of the list's longest word. -/
def WordList.longest (list : WordList) : Nat := (list.words.map byteLen).max?.getD 0

/-- One word of the list, by its position in it. -/
abbrev RecoveryWord (list : WordList) := Fin list.words.length

namespace RecoveryWord

variable {list : WordList}

/-- The word as the list spells it. -/
def text (word : RecoveryWord list) : Str := list.words.get word

def of (list : WordList) (text : Str) : Option (RecoveryWord list) := list.words.finIdxOf? text

end RecoveryWord

/-! ### Splitting a chunk -/

/-- How one separator-free chunk splits into list words. -/
inductive Segmentation (list : WordList) where
  | words (found : List (RecoveryWord list))
  | unknown

/-- One word taken while splitting a chunk: where it ends and which word it is. -/
structure SplitStep (list : WordList) where
  length : Nat
  word : RecoveryWord list

/-- The local variables of the search. The path's last step comes first. -/
structure Search (list : WordList) where
  deadEnds : Finset Nat
  path : List (SplitStep list)
  start : Nat
  shortest : Nat

namespace Segmentation

variable (list : WordList) (chunk : Str)

/-- The word of one length that starts here, unless it ends at a dead end. -/
def wordOfLength (search : Search list) (length : Nat) : Option (SplitStep list) :=
  let stop := search.start + length
  if stop ∈ search.deadEnds then none
  else ((byteRange chunk search.start stop).bind (RecoveryWord.of list)).map fun word =>
    { length, word }

/-- The lengths left to try, from the shortest to the longest that fits. -/
def lengths (search : Search list) : List Nat :=
  List.range' search.shortest
    (min list.longest (byteLen chunk - search.start) + 1 - search.shortest)

/-- One round of the loop. -/
def round (search : Search list) : Round (Search list) (Segmentation list) :=
  if search.start = byteLen chunk then .done (.words (search.path.reverse.map (·.word)))
  else
    match (lengths list chunk search).findSome? (wordOfLength list chunk search) with
    | some step =>
      .again { search with start := search.start + step.length, path := step :: search.path,
                           shortest := 1 }
    | none =>
      let deadEnds := insert search.start search.deadEnds
      match search.path with
      | [] => .done .unknown
      | step :: path =>
        .again { deadEnds, path, start := search.start - step.length,
                 shortest := step.length + 1 }

/-- Where the search starts. -/
def begin : Search list where
  deadEnds := ∅
  path := []
  start := 0
  shortest := 1

/-- Split a chunk into list words, depth first. Each round but the last takes a word or
marks a dead end, so this many rounds are enough. -/
def search : Option (Segmentation list) :=
  runLoop (round list chunk) ((byteLen chunk + 2) * (byteLen chunk + 2)) (begin list)

def of : Segmentation list := (search list chunk).getD .unknown

end Segmentation

/-! ### What was typed -/

/-- A word's place in what was typed, counting from zero. -/
structure RecoveryWordPosition where
  value : UInt32
  deriving DecidableEq

def RecoveryWordPosition.place (index : Nat) : RecoveryWordPosition :=
  ⟨if index < 2 ^ 32 then UInt32.ofNat index else UInt32.ofNat (2 ^ 32 - 1)⟩

/-- One typed word the list does not hold, with where it was typed. -/
structure UnknownRecoveryWord where
  position : RecoveryWordPosition
  typed : Str
  deriving DecidableEq

inductive RecoveryPassphraseError where
  | empty
  | unknownWords (unknown : List UnknownRecoveryWord)
  deriving DecidableEq

/-- What a person typed as a recovery passphrase. -/
structure TypedRecoveryWords where
  text : Str

namespace TypedRecoveryWords

def isSeparator (char : Char) : Bool := isWhitespace char || char == '-'

/-- Lowercased chunks between separators. -/
def chunks [Casing] (typed : TypedRecoveryWords) : List Str :=
  ((Casing.toLowercase typed.text).splitOnP isSeparator).filter fun chunk => !chunk.isEmpty

/-- What is found and what is unknown once one more chunk is read. -/
def readChunk (list : WordList) (read : List (RecoveryWord list) × List UnknownRecoveryWord)
    (chunk : Str × Nat) : List (RecoveryWord list) × List UnknownRecoveryWord :=
  match Segmentation.of list chunk.1 with
  | .words found => (read.1 ++ found, read.2)
  | .unknown => (read.1, read.2 ++ [⟨.place chunk.2, chunk.1⟩])

/-- The list words this input spells, checked word by word. -/
def words [Casing] (list : WordList) (typed : TypedRecoveryWords) :
    Except RecoveryPassphraseError (List (RecoveryWord list)) :=
  let chunks := typed.chunks
  if chunks.isEmpty then .error .empty
  else
    let (words, unknown) := chunks.zipIdx.foldl (readChunk list) ([], [])
    if unknown.isEmpty then .ok words else .error (.unknownWords unknown)

end TypedRecoveryWords

end Nook.Recovery
