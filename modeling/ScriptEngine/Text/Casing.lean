import ScriptEngine.Text.Category

namespace ScriptEngine.Text

/-!
# Letter case

Every letter has at most one simple counterpart in the other case, which is what
patterns compare by.  Whole texts are changed by the full rules: some letters
become several ones.
-/

/-!
## Maps between characters

A map of characters is a list of runs in ascending order.  A run maps every
`step`-th code point from its first one on by a common offset; a code point in no
run stays what it is.
-/

/-- Code points that are mapped by a common offset. -/
structure MapRun where
  first : Nat
  count : Nat
  step : Nat
  target : Nat
  deriving DecidableEq, Repr

namespace MapRun

/-- The image of a code point in a run. -/
def image? (run : MapRun) (code : Nat) : Option Nat :=
  let offset := code - run.first
  if run.first ≤ code && offset % run.step == 0 && offset / run.step < run.count then
    some (run.target + offset)
  else none

/-- The pairs of code points and images of a run. -/
def pairs (run : MapRun) : List (Nat × Nat) :=
  (List.range run.count).map fun index =>
    (run.first + index * run.step, run.target + index * run.step)

end MapRun

/-- A map of characters as runs in ascending order. -/
structure CharMap where
  runs : Array MapRun

namespace CharMap

/-- The runs described by a gap, a count, a step and a target each. -/
def runsFrom : Nat → List Nat → List MapRun
  | before, gap :: count :: step :: target :: rest =>
      ⟨before + gap, count, step, target⟩ :: runsFrom (before + gap) rest
  | _, _ => []

/-- Read a table of runs. -/
def ofTable (table : String) : CharMap :=
  ⟨(runsFrom 0 (numbers table)).toArray⟩

/-- The last run that starts at or before a code point, with a budget of halvings. -/
def search (map : CharMap) (code : Nat) : Nat → Nat → Nat → Option MapRun
  | 0, _, _ => none
  | budget + 1, low, high =>
      if high ≤ low then map.runs[low - 1]?
      else
        let middle := (low + high) / 2
        match map.runs[middle]? with
        | none => none
        | some run =>
            if code < run.first then map.search code budget low middle
            else map.search code budget (middle + 1) high

/-- The image of a code point. -/
def applyCode (map : CharMap) (code : Nat) : Nat :=
  match map.search code (map.runs.size.log2 + 3) 0 map.runs.size with
  | some run => (run.image? code).getD code
  | none => code

/-- The image of a character. -/
def apply (map : CharMap) (char : Char) : Char :=
  Char.ofNat (map.applyCode char.toNat)

/-- Every pair of a code point and its image. -/
def pairs (map : CharMap) : List (Nat × Nat) :=
  map.runs.toList.flatMap MapRun.pairs

end CharMap

/-! ## Tables of letters -/

/-- The simple lower case counterparts. -/
def lowerTable : String :=
  "65 26 1 97 127 23 1 224 24 7 1 248 40 24 2 257 48 1 1 105 2 3 2 307 7 8 2 314 17 23 2 331 46
  1 1 255 1 3 2 378 8 1 1 595 1 2 2 387 4 1 1 596 1 1 1 392 2 2 1 598 2 1 1 396 3 1 1 477 1 1
  1 601 1 1 1 603 1 1 1 402 2 1 1 608 1 1 1 611 2 1 1 617 1 1 1 616 1 1 1 409 4 1 1 623 1 1 1
  626 2 1 1 629 1 3 2 417 6 1 1 640 1 1 1 424 2 1 1 643 3 1 1 429 2 1 1 648 1 1 1 432 2 2 1
  650 2 2 2 436 4 1 1 658 1 1 1 441 4 1 1 445 8 1 1 454 1 1 1 454 2 1 1 457 1 1 1 457 2 1 1
  460 1 9 2 460 19 9 2 479 19 1 1 499 1 2 2 499 4 1 1 405 1 1 1 447 1 20 2 505 40 1 1 414 2 9
  2 547 24 1 1 11365 1 1 1 572 2 1 1 410 1 1 1 11366 3 1 1 578 2 1 1 384 1 1 1 649 1 1 1 652 1
  5 2 583 298 2 2 881 6 1 1 887 9 1 1 1011 7 1 1 940 2 3 1 941 4 1 1 972 2 2 1 973 3 17 1 945
  18 9 1 963 44 1 1 983 9 12 2 985 28 1 1 952 3 1 1 1016 2 1 1 1010 1 1 1 1019 3 3 1 891 3 16
  1 1104 16 32 1 1072 80 17 2 1121 42 27 2 1163 54 1 1 1231 1 7 2 1218 15 48 2 1233 97 38 1
  1377 2927 38 1 11520 39 1 1 11559 6 1 1 11565 723 80 1 43888 80 6 1 5112 2208 43 1 4304 45 3
  1 4349 323 75 2 7681 158 1 1 223 2 48 2 7841 104 8 1 7936 16 6 1 7952 16 8 1 7968 16 8 1
  7984 16 6 1 8000 17 4 2 8017 15 8 1 8032 32 8 1 8064 16 8 1 8080 16 8 1 8096 16 2 1 8112 2 2
  1 8048 2 1 1 8115 12 4 1 8050 4 1 1 8131 12 2 1 8144 2 2 1 8054 14 2 1 8160 2 2 1 8058 2 1 1
  8165 12 2 1 8056 2 2 1 8060 2 1 1 8179 298 1 1 969 4 1 1 107 1 1 1 229 7 1 1 8526 46 16 1
  8560 35 1 1 8580 819 26 1 9424 1866 48 1 11312 96 1 1 11361 2 1 1 619 1 1 1 7549 1 1 1 637 3
  3 2 11368 6 1 1 593 1 1 1 625 1 1 1 592 1 1 1 594 2 1 1 11379 3 1 1 11382 9 2 1 575 2 50 2
  11393 107 2 2 11500 7 1 1 11507 31054 23 2 42561 64 14 2 42625 162 7 2 42787 16 31 2 42803
  71 2 2 42874 4 1 1 7545 1 5 2 42879 13 1 1 42892 2 1 1 613 3 2 2 42897 6 10 2 42903 20 1 1
  614 1 1 1 604 1 1 1 609 1 1 1 620 1 1 1 618 2 1 1 670 1 1 1 647 1 1 1 669 1 1 1 43859 1 8 2
  42933 16 1 1 42900 1 1 1 642 1 1 1 7566 1 2 2 42952 9 1 1 42961 6 2 2 42967 31 1 1 42998
  22316 26 1 65345 1247 40 1 66600 176 36 1 66776 192 11 1 66967 12 15 1 66979 16 7 1 66995 8
  2 1 67003 1772 51 1 68800 3104 32 1 71872 21920 32 1 93792 31424 34 1 125218"

/-- The simple lower case counterparts of the youngest capitals, which only the comparison of
single characters knows. -/
def youngLowerTable : String :=
  "7305 1 1 7306 35650 1 1 612 1 2 2 42957 6 2 2 42963 8 1 1 42971 2 1 1 411 25972 22 1 68976
  24912 25 1 93883"

/-- The simple upper case counterparts of characters that no capital has as its lower case, and a
letter that stays although it is the lower case of one. -/
def otherUpperTable : String :=
  "181 1 1 924 42 1 1 223 82 1 1 73 78 1 1 83 70 1 1 452 3 1 1 455 3 1 1 458 39 1 1 497 339 1 1 921
  125 1 1 931 14 1 1 914 1 1 1 920 4 1 1 934 1 1 1 928 26 1 1 922 1 1 1 929 4 1 1 917 6283 1 1 1042
  1 1 1 1044 1 1 1 1054 1 2 1 1057 2 1 1 1058 1 1 1 1066 1 1 1 1122 1 1 1 42570 531 1 1 7776 291 1
  1 921"

/-- The characters whose upper case form has several letters, in rows of words. -/
def longUpperRows : List (Nat × String) :=
  [(0xDF, "SS"), (0x149, "ʼN"), (0x1F0, "J\u030c"), (0x390, "Ι\u0308\u0301"),
    (0x3B0, "Υ\u0308\u0301"), (0x587, "ԵՒ"), (0x1E96, "H\u0331 T\u0308 W\u030a Y\u030a Aʾ"),
    (0x1F50, "Υ\u0313 � Υ\u0313\u0300 � Υ\u0313\u0301 � Υ\u0313\u0342"),
    (0x1F80, "ἈΙ ἉΙ ἊΙ ἋΙ ἌΙ ἍΙ ἎΙ ἏΙ ἈΙ ἉΙ ἊΙ ἋΙ ἌΙ ἍΙ ἎΙ ἏΙ ἨΙ ἩΙ ἪΙ ἫΙ ἬΙ ἭΙ ἮΙ ἯΙ ἨΙ ἩΙ ἪΙ ἫΙ
      ἬΙ ἭΙ ἮΙ ἯΙ ὨΙ ὩΙ ὪΙ ὫΙ ὬΙ ὭΙ ὮΙ ὯΙ ὨΙ ὩΙ ὪΙ ὫΙ ὬΙ ὭΙ ὮΙ ὯΙ � � ᾺΙ ΑΙ ΆΙ � Α\u0342 Α\u0342Ι
      � � � � ΑΙ � � � � � ῊΙ ΗΙ ΉΙ � Η\u0342 Η\u0342Ι � � � � ΗΙ � � � � � Ι\u0308\u0300
      Ι\u0308\u0301 � � Ι\u0342 Ι\u0308\u0342"),
    (0x1FE2, "Υ\u0308\u0300 Υ\u0308\u0301 Ρ\u0313 � Υ\u0342 Υ\u0308\u0342"),
    (0x1FF2, "ῺΙ ΩΙ ΏΙ � Ω\u0342 Ω\u0342Ι � � � � ΩΙ"), (0xFB00, "FF FI FL FFI FFL ST ST"),
    (0xFB13, "ՄՆ ՄԵ ՄԻ ՎՆ ՄԽ")]

/-- The characters that take part in case distinctions. -/
def casedTable : String :=
  "65 26 6 26 47 1 10 1 4 1 5 23 1 31 1 195 1 4 4 208 1 36 7 2 30 5 96 1 42 4 2 2 2 4 1 1 6 1 1
  3 1 1 1 20 1 83 1 139 8 166 1 38 9 41 2839 38 1 1 5 1 2 43 1 4 672 86 2 6 2178 9 7 43 2 3 64
  192 64 278 2 6 2 38 2 6 2 8 1 1 1 1 1 1 1 31 2 53 1 7 1 1 3 3 1 7 3 4 2 6 4 13 5 3 1 7 116 1
  13 1 16 13 101 1 4 1 2 10 1 1 3 5 6 1 1 1 1 1 1 4 1 6 4 1 2 4 5 5 4 1 17 32 3 2 817 52 1814
  229 6 4 3 2 12 38 1 1 5 1 30994 46 18 30 132 102 3 4 1 59 5 2 1 1 1 5 24 5 1 3 821 43 1 14 6
  80 20288 7 12 5 1033 26 6 26 1189 80 96 36 4 36 116 11 1 15 1 7 1 2 1 11 1 15 1 7 1 2 451 1
  2 3 1 42 1 9 1221 51 13 51 2989 64 21856 64 25984 85 1 71 1 2 2 1 2 2 2 4 1 12 1 1 1 7 1 65
  1 4 2 8 1 7 1 28 1 4 1 5 1 1 3 7 1 340 2 25 1 25 1 31 1 25 1 31 1 25 1 31 1 25 1 31 1 25 1 8
  1844 10 1 20 6 6 261 62 2194 68 2028 26 6 26 6 26"

/-- The signs that do not end a word for the rule on the last sigma. -/
def wordSignTable : String :=
  "39 1 6 1 11 1 124 1 719 1 471 1 148 1 6691 2 10 1 2 1 56811 1 62 1 2 1 177 1 6 1 11 1 6147 1"

/-- The marks that are younger than the rule on the last sigma, which ends words at them. -/
def youngMarkTable : String :=
  "2199 1 4663 15 2 12 36101 1 25948 1 26 5 1 1 341 1 52 3 1214 6 13 1*5 14 2 1917 1 1 3 1 1 626 1
  384 1 16835 12 3 3 3088 3 40 2 645 2 30202 2 243 1 2 1 7 2 5 1 9 1"

/-- The map to simple lower case. -/
def lowerMap : CharMap :=
  CharMap.ofTable lowerTable

/-- The map to simple upper case: from every lower case back to its first capital, and others.  Of
two runs with one code point the last is asked. -/
def upperMap : CharMap :=
  let back := lowerMap.pairs.reverse.map fun (code, lower) => ⟨lower, 1, 1, code⟩
  let runs := back ++ (CharMap.ofTable otherUpperTable).runs.toList
  ⟨(runs.mergeSort fun left right => left.first ≤ right.first).toArray⟩

/-- The characters that take part in case distinctions. -/
def casedRanges : Ranges :=
  Ranges.ofTable casedTable

/-- The characters that the rule on the last sigma looks through, among them young marks. -/
def ignorableRanges : List Ranges :=
  .ofTable wordSignTable ::
    [Category.flatMark, .enclosingMark, .format, .modifierLetter, .modifierSign].map Category.ranges

/-- The young marks, which the rule on the last sigma does not look through. -/
def youngMarkRanges : Ranges :=
  Ranges.ofTable youngMarkTable

/-- The map of the youngest capitals to simple lower case. -/
def youngLowerMap : CharMap :=
  CharMap.ofTable youngLowerTable

/-- The simple lower case of a code point. -/
def lowerCode (code : Nat) : Nat :=
  if code < 0x80 then (if 0x41 ≤ code && code ≤ 0x5A then code + 0x20 else code)
  else lowerMap.applyCode (youngLowerMap.applyCode code)

/-- The simple lower case of a character. -/
def lowerChar (char : Char) : Char :=
  Char.ofNat (lowerCode char.toNat)

/-- A text with every character in its simple lower case. -/
def lowerEach (text : String) : String :=
  String.ofList (text.toList.map lowerChar)

/-- The words a word of a row stands for: two characters with a dash between them stand for all
characters from one to the other. -/
def wordsMeant : List Char → List (List Char)
  | [first, '–', last] =>
      (List.range' first.toNat (last.toNat + 1 - first.toNat)).map fun code => [Char.ofNat code]
  | word => [word]

/-- The code points of a word that spells a character. -/
def spelledWord (word : List Char) : List Nat :=
  word.map fun char => if char = '␣' then 0x20 else char.toNat

/-- The characters of rows that have a spelling, with what spells them. -/
def spellings (rows : List (Nat × String)) : Array (Nat × List Nat) :=
  let entries := rows.flatMap fun (first, row) => ((words row).flatMap wordsMeant).zipIdx first
  ((entries.filter (·.1 ≠ ['\uFFFD'])).map fun (word, code) => (code, spelledWord word)).toArray

/-- Search an entry between two bounds on the index, with a budget of halvings. -/
def searchExpansion (entries : Array (Nat × List Nat)) (code : Nat) :
    Nat → Nat → Nat → Option (List Nat)
  | 0, _, _ => none
  | budget + 1, low, high =>
      if high ≤ low then none
      else
        let middle := (low + high) / 2
        match entries[middle]? with
        | none => none
        | some (found, letters) =>
            if code < found then searchExpansion entries code budget low middle
            else if found < code then searchExpansion entries code budget (middle + 1) high
            else some letters

/-- The entry of a code point. -/
def expansion? (entries : Array (Nat × List Nat)) (code : Nat) : Option (List Nat) :=
  searchExpansion entries code (entries.size.log2 + 3) 0 entries.size

/-- The characters with an upper case form of several letters. -/
def longUpper : Array (Nat × List Nat) :=
  spellings longUpperRows

/-- The upper case form of a character. -/
def upperLetters (char : Char) : List Char :=
  if char.toNat < 0x80 then [char.toUpper]
  else
    match expansion? longUpper char.toNat with
    | some letters => letters.map Char.ofNat
    | none => [upperMap.apply char]

/-- A text in upper case. -/
def upper (text : String) : String :=
  String.ofList (text.toList.flatMap upperLetters)

/-- The lower case form of a character. -/
def lowerLetters (char : Char) : List Char :=
  if char.toNat < 0x80 then [char.toLower]
  else if char.toNat = 0x130 then ['i', Char.ofNat 0x307]
  else [lowerMap.apply char]

/-- Whether a character takes part in case distinctions. -/
def isCased (char : Char) : Bool :=
  casedRanges.contains char

/-- Whether the rule on the last sigma looks through a character. -/
def isCaseIgnorable (char : Char) : Bool :=
  ignorableRanges.any (·.contains char) && !youngMarkRanges.contains char

/-- The capital sigma. -/
def capitalSigma : Char :=
  Char.ofNat 0x3A3

end ScriptEngine.Text
