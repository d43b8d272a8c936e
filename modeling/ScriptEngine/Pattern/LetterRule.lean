namespace ScriptEngine

/-!
# Letter case in ranges

A range of capitals brings the range of its small letters into a set that is compared
in lower case.  The rules say which stretch of letters goes where; a rule is applied to
both ends of the part of a range it covers.
-/

/-- What becomes of the ends of a stretch of letters. -/
inductive LetterRule where
  | onto (code : Nat)
  | up (offset : Nat)
  | down (offset : Nat)
  | toOdd
  | toEven
  deriving DecidableEq, Repr

namespace LetterRule

/-- The image of an end. -/
def image (rule : LetterRule) (code : Nat) : Nat :=
  match rule with
  | onto target => target
  | up offset => code + offset
  | down offset => code - offset
  | toOdd => if code % 2 = 0 then code + 1 else code
  | toEven => if code % 2 = 0 then code else code + 1

/-- The stretches of letters with their rules, in ascending order. -/
def all : List (Nat × Nat × LetterRule) :=
  [ (0x41, 0x5A, .up 32), (0xC0, 0xDE, .up 32), (0x100, 0x12E, .toOdd), (0x130, 0x130, .onto 0x69),
    (0x132, 0x136, .toOdd), (0x139, 0x147, .toEven), (0x14A, 0x176, .toOdd),
    (0x178, 0x178, .onto 0xFF), (0x179, 0x17D, .toEven), (0x181, 0x181, .onto 0x253),
    (0x182, 0x184, .toOdd), (0x186, 0x186, .onto 0x254), (0x187, 0x187, .onto 0x188),
    (0x189, 0x18A, .up 205), (0x18B, 0x18B, .onto 0x18C), (0x18E, 0x18E, .onto 0x1DD),
    (0x18F, 0x18F, .onto 0x259), (0x190, 0x190, .onto 0x25B), (0x191, 0x191, .onto 0x192),
    (0x193, 0x193, .onto 0x260), (0x194, 0x194, .onto 0x263), (0x196, 0x196, .onto 0x269),
    (0x197, 0x197, .onto 0x268), (0x198, 0x198, .onto 0x199), (0x19C, 0x19C, .onto 0x26F),
    (0x19D, 0x19D, .onto 0x272), (0x19F, 0x19F, .onto 0x275), (0x1A0, 0x1A4, .toOdd),
    (0x1A7, 0x1A7, .onto 0x1A8), (0x1A9, 0x1A9, .onto 0x283), (0x1AC, 0x1AC, .onto 0x1AD),
    (0x1AE, 0x1AE, .onto 0x288), (0x1AF, 0x1AF, .onto 0x1B0), (0x1B1, 0x1B2, .up 217),
    (0x1B3, 0x1B5, .toEven), (0x1B7, 0x1B7, .onto 0x292), (0x1B8, 0x1B8, .onto 0x1B9),
    (0x1BC, 0x1BC, .onto 0x1BD), (0x1C4, 0x1C5, .onto 0x1C6), (0x1C7, 0x1C8, .onto 0x1C9),
    (0x1CA, 0x1CB, .onto 0x1CC), (0x1CD, 0x1DB, .toEven), (0x1DE, 0x1EE, .toOdd),
    (0x1F1, 0x1F2, .onto 0x1F3), (0x1F4, 0x1F4, .onto 0x1F5), (0x1FA, 0x216, .toOdd),
    (0x386, 0x386, .onto 0x3AC), (0x388, 0x38A, .up 37), (0x38C, 0x38C, .onto 0x3CC),
    (0x38E, 0x38F, .up 63), (0x391, 0x3AB, .up 32), (0x3E2, 0x3EE, .toOdd),
    (0x401, 0x40F, .up 80), (0x410, 0x42F, .up 32), (0x460, 0x480, .toOdd),
    (0x490, 0x4BE, .toOdd), (0x4C1, 0x4C3, .toEven), (0x4C7, 0x4C7, .onto 0x4C8),
    (0x4CB, 0x4CB, .onto 0x4CC), (0x4D0, 0x4EA, .toOdd), (0x4EE, 0x4F4, .toOdd),
    (0x4F8, 0x4F8, .onto 0x4F9), (0x531, 0x556, .up 48), (0x10A0, 0x10C5, .up 48),
    (0x1E00, 0x1EF8, .toOdd), (0x1F08, 0x1F0F, .down 8), (0x1F18, 0x1F1F, .down 8),
    (0x1F28, 0x1F2F, .down 8), (0x1F38, 0x1F3F, .down 8), (0x1F48, 0x1F4D, .down 8),
    (0x1F59, 0x1F59, .onto 0x1F51), (0x1F5B, 0x1F5B, .onto 0x1F53), (0x1F5D, 0x1F5D, .onto 0x1F55),
    (0x1F5F, 0x1F5F, .onto 0x1F57), (0x1F68, 0x1F6F, .down 8), (0x1F88, 0x1F8F, .down 8),
    (0x1F98, 0x1F9F, .down 8), (0x1FA8, 0x1FAF, .down 8), (0x1FB8, 0x1FB9, .down 8),
    (0x1FBA, 0x1FBB, .down 74), (0x1FBC, 0x1FBC, .onto 0x1FB3), (0x1FC8, 0x1FCB, .down 86),
    (0x1FCC, 0x1FCC, .onto 0x1FC3), (0x1FD8, 0x1FD9, .down 8), (0x1FDA, 0x1FDB, .down 100),
    (0x1FE8, 0x1FE9, .down 8), (0x1FEA, 0x1FEB, .down 112), (0x1FEC, 0x1FEC, .onto 0x1FE5),
    (0x1FF8, 0x1FF9, .down 128), (0x1FFA, 0x1FFB, .down 126), (0x1FFC, 0x1FFC, .onto 0x1FF3),
    (0x2160, 0x216F, .up 16), (0x24B6, 0x24D0, .up 26), (0xFF21, 0xFF3A, .up 32) ]

/-- The ranges that a range brings into a set, without those that lie in it. -/
def images (first last : Nat) : List (Nat × Nat) :=
  all.filterMap fun (low, high, rule) =>
    if high < first ∨ last < low then none
    else
      let start := rule.image (max low first)
      let stop := rule.image (min high last)
      if start < first ∨ last < stop then some (start, stop) else none

end LetterRule

end ScriptEngine
