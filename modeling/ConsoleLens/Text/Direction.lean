import ConsoleLens.Text.Runs

/-!
# Text/Direction — which way characters are written

Letters are written to the right or to the left; digits, marks and signs take part in either.  The
runs tell apart the characters that a domain takes, others count with their neighbours, and a
character that stands for others counts as the first of them that is no mark.
-/

namespace ConsoleLens.Text

/-- The way a character is written. -/
inductive Direction where
  | leftToRight
  | rightToLeft
  /-- A digit of Arabic script. -/
  | arabicNumber
  /-- Any other digit. -/
  | number
  /-- A mark on the character before. -/
  | mark
  /-- A sign. -/
  | neutral
  deriving DecidableEq

/-- The runs of other characters and of letters that are written to the left. -/
def rightToLeftRuns : List Nat :=
  [1470, 1, 1, 1, 2, 1, 2, 1, 9, 54, 2, 1, 2, 1, 1, 1, 13, 48, 34, 3, 1, 101, 15, 2, 7, 2, 10,
    23, 1, 30, 29, 89, 11, 58, 9, 2, 4, 3, 1, 24, 4, 1, 9, 1, 3, 1, 7, 41, 5, 58, 8, 42, 6251, 5,
    55779, 1, 1, 543, 18, 127, 33, 13, 116, 238, 2209, 287, 1, 225, 15, 40, 8, 165, 6, 78, 7,
    484, 348, 43, 2, 153, 11, 49, 4, 122, 55296, 208, 48, 68, 7, 1445]

/-- The runs of other characters and of digits of Arabic script. -/
def arabicNumberRuns : List Nat :=
  [1632, 10, 1, 2, 67267, 336]

/-- The runs of other characters and of digits. -/
def numberRuns : List Nat :=
  [188, 3, 1585, 10, 6742, 17, 40, 1, 735, 11, 3549, 15, 81, 27, 140, 25, 111, 31, 52962, 31,
    60929, 10]

/-- The runs of other characters and of marks without a width. -/
def flatMarkRuns : List Nat :=
  [768, 69, 1, 42, 275, 7, 263, 45, 1, 1, 1, 2, 1, 2, 1, 9, 64, 11, 48, 21, 16, 1, 101, 8, 1, 6,
    2, 2, 1, 4, 35, 1, 30, 29, 89, 11, 58, 9, 9, 1, 24, 4, 1, 9, 1, 3, 1, 7, 41, 5, 58, 8, 42,
    57, 55, 1, 1, 1, 4, 8, 4, 1, 3, 7, 10, 2, 29, 1, 58, 1, 4, 6, 6, 1, 20, 4, 24, 5, 57, 2, 3,
    24, 23, 2, 3, 1, 11, 2, 57, 1, 4, 8, 4, 3, 18, 4, 20, 8, 58, 1, 2, 1, 1, 6, 6, 10, 11, 4, 28,
    1, 61, 1, 12, 3, 48, 1, 3, 1, 55, 1, 1, 3, 5, 18, 10, 4, 27, 1, 58, 1, 15, 9, 13, 4, 26, 2,
    57, 2, 4, 5, 7, 1, 20, 4, 27, 1, 72, 5, 3, 6, 89, 1, 2, 11, 8, 8, 98, 1, 2, 9, 11, 8, 72, 2,
    27, 1, 1, 1, 1, 1, 55, 14, 1, 5, 1, 2, 5, 49, 8, 1, 102, 4, 1, 6, 1, 2, 2, 2, 25, 2, 4, 3,
    16, 4, 13, 1, 2, 2, 6, 1, 15, 1, 703, 3, 946, 3, 29, 2, 30, 14, 18, 14, 55, 7, 8, 1, 2, 11,
    9, 3, 165, 2, 34, 1, 118, 3, 4, 2, 9, 1, 6, 7, 215, 2, 2, 3, 56, 1, 1, 9, 1, 1, 2, 8, 6, 13,
    48, 84, 48, 1, 1, 5, 1, 1, 5, 1, 40, 9, 12, 2, 32, 4, 2, 2, 1, 3, 56, 1, 1, 2, 3, 1, 1, 3,
    58, 8, 2, 5, 149, 3, 1, 13, 1, 7, 4, 1, 6, 1, 3, 2, 198, 64, 720, 51, 3052, 3, 141, 1, 96,
    32, 554, 4, 107, 4, 30162, 4, 1, 10, 32, 2, 80, 2, 272, 1, 3, 1, 4, 1, 25, 2, 5, 4, 148, 10,
    18, 18, 13, 1, 38, 8, 25, 11, 46, 3, 48, 1, 2, 4, 2, 2, 39, 1, 67, 6, 2, 2, 2, 11, 3, 1, 8,
    1, 47, 1, 51, 1, 1, 3, 2, 2, 5, 2, 1, 1, 42, 2, 8, 11, 228, 1, 2, 1, 4, 3, 20270, 1, 769, 17,
    365, 3, 604, 131, 96, 1, 149, 10, 1665, 15, 40, 8, 165, 6, 569, 12, 379, 2, 153, 11, 49, 4,
    123, 1, 54, 15, 41, 1, 2, 2, 10, 3, 49, 4, 2, 2, 7, 14, 48, 3, 36, 5, 1, 9, 61, 1, 12, 2, 52,
    9, 10, 4, 2, 1, 95, 3, 2, 1, 1, 2, 6, 66, 95, 1, 3, 13, 16, 2, 57, 2, 3, 1, 37, 154, 56, 8,
    2, 3, 1, 1, 23, 1, 84, 6, 1, 1, 4, 2, 1, 2, 238, 6, 4, 2, 1, 2, 27, 36, 51, 8, 2, 1, 1, 2,
    106, 1, 1, 1, 2, 6, 1, 1, 101, 3, 2, 4, 1, 9, 255, 9, 1, 2, 256, 2, 1, 1, 4, 1, 144, 8, 4, 1,
    32, 6, 2, 2, 40, 6, 2, 4, 8, 9, 1, 6, 2, 3, 46, 13, 1, 2, 406, 14, 84, 23, 1, 7, 1, 2, 1, 75,
    49, 21, 1, 9, 64, 3, 2, 1, 1, 1, 347, 2, 19451, 5, 59, 7, 1048, 1, 63, 4, 81, 12, 19629, 2,
    4705, 80, 535, 3, 17, 8, 2, 7, 30, 4, 148, 3, 1979, 55, 4, 50, 8, 1, 14, 1, 22, 1125, 256,
    48, 256, 7, 375, 18, 44, 4, 1504, 48, 68, 7]

/-- The runs of other characters and of signs. -/
def neutralRuns : List Nat :=
  [161, 20, 1, 6, 3, 1, 23, 1, 31, 1, 449, 2, 7, 14, 2, 14, 5, 9, 1, 17, 116, 2, 17, 1, 110, 1,
    403, 7, 117, 2, 1, 2, 1, 1, 1, 2, 90, 1, 115, 1, 10, 1, 268, 4, 504, 2, 7, 1, 245, 8, 250,
    13, 120, 7, 448, 1, 250, 4, 1106, 16, 96, 1, 666, 5, 315, 1, 20, 32, 304, 6, 152, 34, 1548,
    136, 12, 8, 1, 39, 51, 4, 1, 7, 5, 2, 1, 9, 3, 3, 1, 4, 3, 4, 8, 1, 5, 14, 60, 428, 69, 26,
    1, 211, 11, 568, 1, 339, 256, 768, 229, 6, 14, 7, 256, 159, 1, 83, 270, 4, 3, 25, 15, 1, 5,
    2, 5, 4, 95, 1, 90, 1, 196, 48, 16, 68, 7036, 64, 22160, 64, 317, 3, 99, 1, 10, 2, 128, 34,
    102, 1, 159, 4, 12, 8, 52, 12, 746, 6, 20942, 18, 127, 33, 13, 35, 17, 64, 238, 7, 122, 32,
    257, 1, 62, 77, 3, 64, 1871, 1, 537, 7, 1298, 20, 1530, 32, 2389, 42, 20451, 1, 25094, 89, 3,
    155, 32, 96, 865, 1, 25, 1, 31, 1, 25, 1, 31, 1, 25, 1, 31, 1, 25, 1, 31, 1, 25, 1, 2875,
    1249, 1808, 529, 10, 34, 2, 27, 35, 3, 61, 57, 90, 16, 16, 3488]

/-- **The way a character is written.** -/
def direction (c : Char) : Direction :=
  if c.toNat < 128 then
    if c.isAlpha then .leftToRight else if c.isDigit then .number else .neutral
  else if inRuns rightToLeftRuns c then .rightToLeft
  else if inRuns arabicNumberRuns c then .arabicNumber
  else if inRuns numberRuns c then .number
  else if inRuns flatMarkRuns c then .mark
  else if inRuns neutralRuns c then .neutral
  else .leftToRight

end ConsoleLens.Text
