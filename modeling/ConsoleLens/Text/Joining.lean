import ConsoleLens.Text.Direction

/-!
# Text/Joining — marks, and characters that join their neighbours

The runs tell apart the characters that a domain takes; others count with their neighbours.
-/

namespace ConsoleLens.Text

/-- The runs of other characters and of marks of any kind. -/
def markRuns : List Nat :=
  [768, 69, 1, 42, 275, 7, 263, 45, 1, 1, 1, 2, 1, 2, 1, 9, 64, 11, 48, 21, 16, 1, 101, 8, 1, 6,
    2, 2, 1, 4, 35, 1, 30, 29, 89, 11, 58, 9, 9, 1, 24, 4, 1, 9, 1, 3, 1, 7, 41, 5, 57, 9, 42,
    58, 54, 3, 1, 18, 1, 7, 10, 2, 29, 4, 55, 1, 1, 16, 9, 5, 6, 4, 24, 7, 55, 29, 23, 2, 3, 1,
    11, 4, 55, 1, 1, 18, 18, 4, 20, 11, 55, 1, 1, 30, 6, 4, 28, 1, 59, 18, 7, 15, 26, 5, 55, 1,
    1, 26, 10, 4, 27, 3, 56, 1, 1, 30, 6, 4, 13, 17, 55, 2, 1, 16, 9, 1, 10, 4, 27, 4, 69, 28,
    12, 2, 61, 1, 1, 12, 8, 8, 98, 1, 1, 10, 11, 8, 72, 2, 27, 1, 1, 1, 1, 1, 4, 2, 49, 20, 1, 2,
    5, 49, 8, 1, 100, 20, 23, 4, 4, 3, 1, 3, 2, 7, 3, 4, 13, 12, 1, 1, 10, 4, 703, 3, 946, 13,
    19, 3, 29, 14, 18, 14, 54, 30, 9, 3, 165, 2, 34, 1, 118, 32, 215, 7, 55, 43, 48, 85, 47, 17,
    38, 9, 12, 3, 30, 13, 56, 22, 40, 23, 149, 3, 1, 21, 4, 1, 6, 1, 2, 3, 198, 64, 720, 51,
    3052, 3, 141, 1, 96, 32, 554, 6, 105, 4, 30162, 4, 1, 10, 32, 2, 80, 2, 272, 1, 3, 1, 4, 1,
    23, 5, 4, 4, 80, 2, 50, 26, 18, 18, 13, 1, 38, 8, 25, 24, 33, 4, 47, 14, 36, 1, 67, 23, 3, 1,
    8, 4, 43, 3, 50, 1, 1, 3, 2, 2, 5, 2, 1, 1, 41, 5, 5, 12, 226, 8, 1, 4, 20270, 1, 769, 17,
    365, 3, 604, 131, 96, 1, 149, 10, 1665, 15, 40, 8, 165, 6, 569, 12, 57, 5, 317, 2, 77, 6, 70,
    11, 49, 4, 122, 3, 53, 15, 41, 1, 2, 2, 10, 4, 45, 11, 7, 14, 48, 3, 36, 15, 15, 2, 44, 1,
    12, 3, 48, 14, 8, 4, 1, 2, 92, 12, 6, 1, 2, 63, 95, 17, 16, 5, 54, 2, 1, 18, 7, 6, 5, 30, 56,
    25, 1, 1, 14, 31, 53, 18, 23, 1, 81, 20, 235, 18, 27, 36, 48, 17, 106, 13, 101, 19, 252, 15,
    245, 15, 1, 1, 1, 2, 141, 16, 3, 28, 1, 10, 40, 7, 1, 4, 8, 9, 1, 11, 46, 16, 198, 96, 111,
    17, 82, 110, 49, 21, 1, 9, 58, 14, 347, 4, 9, 2, 1, 1, 48, 15, 23, 86, 5264, 1, 6, 25, 11454,
    18, 2496, 5, 59, 7, 1048, 1, 1, 66, 81, 14, 19627, 2, 4705, 80, 533, 5, 3, 22, 2, 7, 30, 4,
    148, 3, 1979, 55, 4, 50, 8, 1, 14, 1, 22, 1125, 256, 48, 95, 113, 48, 7, 375, 18, 44, 4, 508,
    4, 254, 2, 243, 1, 2, 1, 7, 2, 5, 9, 466, 48, 68, 7]

/-- The runs of other characters and of marks that take away a vowel. -/
def viramaRuns : List Nat :=
  [2381, 1, 127, 1, 127, 4, 124, 3, 125, 8, 120, 3, 125, 8, 120, 8, 102, 2, 16, 1, 124, 5, 107,
    5, 123, 1, 201, 1, 180, 2, 1753, 11, 21, 1, 157, 1, 653, 1, 227, 1, 101, 2, 70, 10, 4483, 1,
    31366, 1, 37, 4, 148, 1, 142, 12, 97, 1, 309, 11, 236, 3, 24143, 1, 1542, 1, 41, 1, 14, 1,
    57, 1, 121, 3, 138, 1, 116, 1, 180, 6, 93, 3, 242, 1, 127, 1, 252, 1, 127, 1, 118, 1, 116, 5,
    265, 1, 259, 2, 161, 1, 83, 1, 18, 9, 73, 1, 421, 1, 260, 2, 81, 1]

/-- The runs of other characters and of those that join what comes after them. -/
def joinsNextRuns : List Nat :=
  [1568, 1, 5, 1, 1, 1, 1, 5, 4, 13, 1, 7, 1, 2, 35, 2, 9, 15, 18, 38, 1, 2, 9, 1, 1, 1, 1, 2,
    40, 3, 2, 1, 18, 3, 5, 4, 1, 9, 1, 1, 1, 1, 1, 2, 31, 11, 3, 15, 2, 4, 1, 1, 2, 3, 2, 6, 74,
    33, 86, 5, 2, 1, 1, 10, 1, 1, 10, 1, 1, 4, 2, 1, 29, 1, 2, 5, 1, 8, 9, 10, 5, 2, 2, 6, 1, 15,
    3902, 1, 24, 96, 7, 34, 1, 6, 36752, 51, 21215, 48, 12, 22, 2, 8, 37, 4, 13, 6, 12, 65, 1,
    35, 11, 4, 2, 4, 2, 4, 2, 8, 1, 7, 1, 1, 2, 4, 3, 70, 1, 24, 3, 24, 4, 24, 4, 15, 20, 64, 2,
    54, 42, 1, 2, 8, 140, 4, 2, 4, 2, 20, 8, 60, 2, 6, 3019, 5, 8, 1, 5, 10, 1, 3, 10, 4, 145, 1,
    1, 1, 3, 3, 1, 2, 1, 1, 2, 1, 28, 2, 337, 34, 1, 1, 415, 2, 1, 10, 96, 3, 1, 17, 12, 3, 28,
    4, 2, 12, 46, 1, 1, 2, 4, 1, 2, 2, 1, 2, 1, 1, 2, 1, 5, 22, 55584, 68, 1213, 2, 4, 12, 1, 4,
    1, 103, 1, 2, 1, 1, 2, 12, 1, 4, 1, 10, 4, 12, 1, 4, 1, 55]

/-- The runs of other characters and of those that join what stands before them. -/
def joinsLastRuns : List Nat :=
  [1568, 1, 1, 30, 1, 10, 35, 2, 1, 3, 1, 95, 1, 1, 24, 2, 10, 3, 2, 1, 16, 1, 1, 30, 29, 51, 74,
    33, 85, 25, 7, 1, 1, 4, 1, 28, 3, 1, 2, 14, 9, 13, 1, 27, 3902, 1, 24, 96, 7, 34, 1, 6,
    36752, 50, 21214, 98, 33, 287, 3, 73, 18, 64, 2, 54, 40, 13, 132, 222, 2913, 6, 1, 1, 1, 2,
    3, 9, 1, 10, 2, 1, 6, 5, 144, 25, 16, 6, 338, 35, 414, 3, 1, 10, 96, 21, 12, 4, 27, 18, 46,
    1, 1, 5, 1, 8, 1, 4, 4, 2, 55605, 68, 1212, 240]

/-- Whether `c` is a mark on the character before it. -/
def isMark (c : Char) : Bool := 128 ≤ c.toNat && inRuns markRuns c

/-- Whether `c` takes away the vowel before it. -/
def isVirama (c : Char) : Bool := 128 ≤ c.toNat && inRuns viramaRuns c

/-- Whether `c` joins what comes after it. -/
def joinsNext (c : Char) : Bool := 128 ≤ c.toNat && inRuns joinsNextRuns c

/-- Whether `c` joins what stands before it. -/
def joinsLast (c : Char) : Bool := 128 ≤ c.toNat && inRuns joinsLastRuns c

/-- Whether `c` lets its neighbours join through it. -/
def isTransparent (c : Char) : Bool := direction c = .mark

end ConsoleLens.Text
