import ScriptEngine.Text.Casing
import ScriptEngine.Text.Utf8

namespace ScriptEngine.Text

/-!
# Texts in lower case

A capital sigma that ends a word has a lower case form of its own, so the lower case
of a text needs to know where words are.  A text is worked off in blocks of bounded
size, written to a buffer of bounded room, and every block starts as if between two
words: a sigma at the front of a block never counts as the end of a word.
-/

/-- The most characters that are looked at to see whether a word goes on after a sigma. -/
def sigmaReach : Nat :=
  31

/-- Why the work on a block stopped. -/
inductive BlockStop where
  | finished
  | needsRoom
  | needsText
  deriving DecidableEq, Repr

/-- What became of a block: the text written, and the characters that are still to be done. -/
structure BlockResult where
  written : List Char
  rest : List Char
  stop : BlockStop
  deriving Repr

/-- The form of a sigma inside a word, given the rest of its block.  The characters that are
looked through have to fit into the buffer, and to be all there unless the text ends. -/
def sigmaForm (last : Bool) (room : Nat) (rest : List Char) : Except BlockStop Char :=
  let through := (rest.take sigmaReach).takeWhile isCaseIgnorable
  if room < 2 + byteCount through then .error .needsRoom
  else if through.length = sigmaReach then .ok (Char.ofNat 0x3C2)
  else
    match rest.drop through.length with
    | next :: _ => .ok (Char.ofNat (if isCased next then 0x3C3 else 0x3C2))
    | [] => if last then .ok (Char.ofNat 0x3C2) else .error .needsText

/-- The lower case form of the first character of what is left of a block. -/
def lowerFirst (last inWord : Bool) (room : Nat) (char : Char) (rest : List Char) :
    Except BlockStop (List Char) :=
  if inWord && char == capitalSigma then
    (sigmaForm last room rest).map fun form => [form]
  else if inWord || isCased char then .ok (lowerLetters char)
  else .ok [char]

/-- Lower case of a block, given whether the text ends with it, whether a character was cut off
at its end, whether it stands in a word, and how many bytes may be written. -/
def lowerBlock (last cut : Bool) : Bool → Nat → List Char → BlockResult
  | _, _, [] => ⟨[], [], if cut then .needsText else .finished⟩
  | inWord, room, char :: rest =>
      match lowerFirst last inWord room char rest with
      | .error stop => ⟨[], char :: rest, stop⟩
      | .ok letters =>
          if room < byteCount letters then ⟨[], char :: rest, .needsRoom⟩
          else
            let goesOn := isCased char || (inWord && isCaseIgnorable char)
            let later := lowerBlock last cut goesOn (room - byteCount letters) rest
            { later with written := letters ++ later.written }

/-- The characters that fit whole into a number of bytes, and those after them. -/
def fitting : Nat → List Char → List Char × List Char
  | _, [] => ([], [])
  | size, char :: rest =>
      if size < char.utf8Size then ([], char :: rest)
      else
        let (taken, left) := fitting (size - char.utf8Size) rest
        (char :: taken, left)

/-- The size of a block, and the first size of the buffer. -/
def blockSize : Nat :=
  128

/-- One step of the work on a text: what was written for what was read, and the text left. -/
structure BlockStep where
  written : List Char
  read : List Char
  left : List Char
  stop : BlockStop
  deriving Repr

/-- Lower case of the first block of a text. -/
def lowerAhead (room : Nat) (text : List Char) : BlockStep :=
  let (block, after) := fitting blockSize text
  let cut := !after.isEmpty && byteCount block < blockSize
  let result := lowerBlock after.isEmpty cut false room block
  { written := result.written
    read := block.take (block.length - result.rest.length)
    left := result.rest ++ after
    stop := result.stop }

/-- The next size of a buffer that is too small. -/
def enlarged (size : Nat) : Nat :=
  if size ≤ 256 then size * 2 else size + size / 2

/-- Lower case of what is left of a text, given the size of the buffer and the part of it that
is in use. -/
def lowerRest : Nat → Nat → Nat → String → List Char → String
  | 0, _, _, done, text => done ++ String.ofList text
  | budget + 1, size, used, done, text =>
      let step := lowerAhead (size - used) text
      let done := done ++ String.ofList step.written
      if step.stop = .finished ∧ step.left.isEmpty then done
      else
        let size := if step.stop = .needsRoom ∧ step.written.isEmpty then enlarged size else size
        lowerRest budget size (used + byteCount step.written) done step.left

/-- Lower case of a text of which the part that is done, of `same` bytes, was in lower case
already. -/
def lowerChanged (total : Nat) : Nat → Nat → String → List Char → String
  | 0, _, done, text => done ++ String.ofList text
  | budget + 1, same, done, text =>
      let step := lowerAhead blockSize text
      let done := done ++ String.ofList step.written
      let written := byteCount step.written
      let used := same + written
      let equal := step.written == step.read
      if step.stop = .finished ∧ step.left.isEmpty then done
      else if equal ∧ step.stop ≠ .needsRoom ∧ !step.read.isEmpty then
        lowerChanged total budget used done step.left
      else
        let kept := if equal then used else same
        let size :=
          if kept ≠ 0 ∧ blockSize < used then total + written - byteCount step.read
          else blockSize
        lowerRest (4 * step.left.length + 64) size used done step.left

/-- A text in lower case. -/
def lower (text : String) : String :=
  let listed := text.toList
  lowerChanged (byteCount listed) (listed.length + 1) 0 "" listed

end ScriptEngine.Text
