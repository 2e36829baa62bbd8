import ConsoleLens.Text.Runs

/-!
# Url/Letters — what a domain makes of a character

A character beyond ASCII is refused, passed over, taken as other characters that it stands for, or
kept.  **Only what it stands for within ASCII is told**, since that alone can part labels or spell a
number; every other character that is not refused counts as itself.
-/

namespace ConsoleLens.Url

/-- The runs of characters that a domain takes and of those that it refuses. -/
def refusedRuns : List Nat :=
  [128, 33, 7, 1, 6, 1, 4, 1, 3, 1, 543, 6, 154, 3, 5, 6, 5, 1, 1, 1, 20, 1, 397, 1, 38, 2, 50,
    2, 3, 1, 55, 8, 27, 4, 6, 17, 22, 1, 192, 1, 48, 2, 59, 2, 101, 14, 59, 2, 49, 2, 15, 1, 28,
    2, 1, 1, 11, 5, 32, 7, 75, 1, 161, 1, 8, 2, 2, 2, 22, 1, 7, 1, 1, 3, 4, 2, 9, 2, 2, 2, 4, 8,
    1, 4, 2, 1, 5, 2, 25, 2, 3, 1, 6, 4, 2, 2, 22, 1, 7, 1, 2, 1, 2, 1, 2, 2, 1, 1, 5, 4, 2, 2,
    3, 3, 1, 7, 4, 1, 1, 7, 17, 10, 3, 1, 9, 1, 3, 1, 22, 1, 7, 1, 2, 1, 5, 2, 10, 1, 3, 1, 3, 2,
    1, 15, 4, 2, 12, 7, 7, 1, 3, 1, 8, 2, 2, 2, 22, 1, 7, 1, 2, 1, 5, 2, 9, 2, 2, 2, 3, 7, 3, 4,
    2, 1, 5, 2, 18, 10, 2, 1, 6, 3, 3, 1, 4, 3, 2, 1, 1, 1, 2, 3, 2, 3, 3, 3, 12, 4, 5, 3, 3, 1,
    4, 2, 1, 6, 1, 14, 21, 5, 13, 1, 3, 1, 23, 1, 16, 2, 9, 1, 3, 1, 4, 7, 2, 1, 3, 1, 2, 2, 4,
    2, 10, 7, 22, 1, 3, 1, 23, 1, 10, 1, 5, 2, 9, 1, 3, 1, 4, 7, 2, 5, 3, 1, 4, 2, 10, 1, 3, 12,
    13, 1, 3, 1, 51, 1, 3, 1, 6, 4, 16, 2, 26, 1, 3, 1, 18, 3, 24, 1, 9, 1, 1, 2, 7, 3, 1, 4, 6,
    1, 1, 1, 8, 6, 10, 2, 3, 12, 58, 4, 29, 37, 2, 1, 1, 1, 5, 1, 24, 1, 1, 1, 23, 2, 5, 1, 1, 1,
    7, 1, 10, 2, 4, 32, 72, 1, 36, 4, 39, 1, 36, 1, 15, 1, 13, 37, 198, 1, 1, 5, 1, 2, 377, 1, 4,
    2, 7, 1, 1, 1, 4, 2, 41, 1, 4, 2, 33, 1, 4, 2, 7, 1, 1, 1, 4, 2, 15, 1, 57, 1, 4, 2, 67, 2,
    32, 3, 26, 6, 86, 2, 6, 2, 640, 1, 28, 3, 89, 7, 22, 9, 24, 9, 20, 12, 13, 1, 3, 1, 2, 12,
    94, 2, 10, 6, 10, 6, 26, 6, 89, 7, 43, 5, 70, 10, 31, 1, 12, 4, 12, 4, 1, 3, 42, 2, 5, 11,
    44, 4, 26, 6, 11, 3, 62, 2, 65, 1, 29, 2, 11, 6, 10, 6, 14, 2, 46, 2, 12, 20, 77, 1, 166, 8,
    60, 3, 15, 3, 62, 5, 43, 2, 11, 8, 43, 5, 534, 2, 6, 2, 38, 2, 6, 2, 8, 1, 1, 1, 1, 1, 1, 1,
    31, 2, 53, 1, 7, 1, 1, 3, 3, 1, 7, 3, 4, 2, 6, 4, 13, 2, 1, 2, 3, 1, 7, 14, 3, 2, 7, 1, 12,
    3, 1, 8, 14, 1, 8, 3, 21, 1, 5, 5, 8, 2, 27, 1, 13, 3, 34, 14, 33, 17, 3, 2, 133, 4, 666, 22,
    11, 21, 40, 20, 1496, 1, 255, 2, 382, 5, 45, 1, 1, 5, 1, 2, 56, 7, 2, 14, 24, 9, 7, 1, 7, 1,
    7, 1, 7, 1, 7, 1, 7, 1, 7, 1, 7, 1, 126, 34, 26, 1, 89, 12, 214, 43, 63, 1, 86, 2, 2, 2, 99,
    5, 43, 1, 94, 1, 86, 10, 47, 1, 418, 1, 4, 1, 16, 1, 28852, 3, 55, 9, 348, 20, 184, 8, 221,
    20, 60, 3, 10, 6, 56, 8, 70, 8, 12, 6, 116, 11, 30, 3, 78, 1, 11, 4, 33, 1, 55, 9, 14, 2, 10,
    2, 103, 24, 28, 10, 6, 2, 6, 2, 6, 9, 7, 1, 7, 1, 60, 4, 126, 2, 10, 6, 11172, 12, 23, 4, 49,
    8452, 366, 2, 106, 38, 7, 12, 5, 5, 26, 1, 5, 1, 1, 1, 2, 1, 2, 1, 280, 6, 364, 32, 10, 2,
    22, 2, 2, 1, 2, 7, 16, 1, 22, 6, 5, 2, 1, 2, 8, 1, 4, 2, 1, 2, 1, 7, 1, 1, 1, 3, 1, 1, 1, 1,
    1, 1, 1, 1, 126, 2, 1, 1, 2, 1, 1, 1, 9, 1, 10, 1, 1, 1, 1, 3, 26, 4, 29, 1, 98, 3, 6, 2, 6,
    2, 6, 2, 3, 3, 3, 1, 3, 1, 7, 17, 12, 1, 26, 1, 19, 1, 2, 1, 15, 2, 14, 34, 123, 5, 3, 4, 45,
    3, 88, 1, 13, 3, 1, 47, 46, 130, 29, 3, 49, 15, 28, 4, 36, 9, 30, 5, 43, 5, 30, 1, 37, 4, 14,
    42, 158, 2, 10, 6, 36, 4, 36, 4, 40, 8, 52, 11, 12, 1, 15, 1, 7, 1, 2, 1, 11, 1, 15, 1, 7, 1,
    2, 3, 52, 12, 311, 9, 22, 10, 8, 24, 6, 1, 42, 1, 9, 69, 6, 2, 1, 1, 44, 1, 2, 3, 1, 2, 23,
    1, 72, 8, 9, 48, 19, 1, 2, 5, 33, 3, 27, 5, 27, 38, 56, 4, 20, 2, 50, 1, 2, 5, 8, 1, 3, 1,
    29, 2, 3, 4, 10, 7, 9, 7, 64, 32, 39, 4, 12, 9, 54, 3, 29, 2, 27, 5, 26, 7, 4, 12, 7, 80, 73,
    55, 51, 13, 51, 7, 46, 8, 10, 6, 38, 3, 29, 8, 2, 208, 31, 1, 42, 1, 3, 2, 2, 16, 6, 8, 9,
    33, 46, 8, 42, 22, 26, 38, 28, 20, 23, 9, 78, 4, 36, 9, 62, 1, 5, 13, 25, 7, 10, 6, 53, 1,
    18, 8, 39, 9, 96, 1, 20, 11, 18, 1, 47, 62, 7, 1, 1, 1, 4, 1, 15, 1, 11, 6, 59, 5, 10, 6, 4,
    1, 8, 2, 2, 2, 22, 1, 7, 1, 2, 1, 5, 1, 10, 2, 2, 2, 3, 2, 1, 6, 1, 5, 7, 2, 7, 3, 5, 11, 10,
    1, 1, 2, 1, 1, 38, 1, 10, 1, 1, 2, 1, 1, 4, 1, 10, 1, 2, 8, 2, 29, 92, 1, 5, 30, 72, 8, 10,
    166, 54, 2, 38, 34, 69, 11, 10, 6, 13, 19, 58, 6, 10, 6, 20, 28, 27, 2, 15, 4, 23, 185, 60,
    100, 83, 12, 8, 2, 1, 2, 8, 1, 2, 1, 30, 1, 2, 2, 12, 9, 10, 70, 8, 2, 46, 2, 11, 27, 72, 8,
    83, 13, 73, 7, 10, 86, 8, 88, 34, 14, 10, 6, 9, 1, 45, 1, 14, 10, 29, 3, 32, 2, 22, 1, 14,
    73, 7, 1, 2, 1, 44, 3, 1, 1, 2, 1, 9, 8, 10, 6, 6, 1, 2, 1, 37, 1, 2, 1, 6, 7, 10, 6, 44, 4,
    10, 246, 25, 7, 17, 1, 41, 3, 29, 85, 1, 15, 50, 13, 923, 102, 111, 1, 5, 11, 196, 2636, 99,
    13, 1072, 16, 22, 10, 3995, 5, 583, 6841, 58, 1734, 569, 7, 31, 1, 10, 4, 81, 1, 10, 6, 30,
    2, 6, 10, 70, 10, 10, 1, 7, 1, 21, 5, 19, 432, 58, 198, 91, 5, 25, 2, 25, 44, 75, 4, 57, 7,
    17, 64, 5, 11, 7, 9, 7382, 41, 32, 97, 115, 8701, 4, 1, 7, 1, 2, 1, 291, 15, 1, 29, 3, 2, 1,
    14, 4, 8, 396, 2308, 107, 5, 13, 3, 9, 7, 10, 2, 8, 3932, 253, 3, 436, 6, 23, 15, 17, 15, 46,
    2, 23, 9, 116, 60, 246, 10, 39, 2, 194, 21, 70, 122, 20, 12, 20, 12, 87, 9, 25, 135, 85, 1,
    71, 1, 2, 2, 1, 2, 2, 2, 4, 1, 12, 1, 1, 1, 7, 1, 65, 1, 4, 2, 8, 1, 7, 1, 28, 1, 4, 1, 5, 1,
    1, 3, 7, 1, 340, 2, 292, 2, 702, 15, 5, 1, 15, 1104, 31, 6, 6, 213, 7, 1, 17, 2, 7, 1, 2, 1,
    5, 5, 62, 33, 1, 112, 45, 3, 14, 2, 10, 4, 2, 320, 31, 17, 58, 5, 1, 464, 42, 214, 43, 4, 1,
    192, 31, 1, 22, 8, 2, 224, 7, 1, 4, 1, 2, 1, 15, 1, 197, 2, 16, 41, 76, 4, 10, 4, 2, 785, 68,
    76, 61, 194, 4, 1, 27, 1, 2, 1, 1, 2, 1, 1, 10, 1, 4, 1, 1, 1, 1, 6, 1, 4, 1, 1, 1, 1, 1, 1,
    3, 1, 2, 1, 1, 2, 1, 1, 1, 1, 1, 1, 1, 1, 1, 1, 2, 1, 1, 2, 4, 1, 7, 1, 4, 1, 4, 1, 1, 1, 10,
    1, 17, 5, 3, 1, 5, 1, 17, 52, 2, 270, 44, 4, 100, 12, 15, 2, 15, 1, 15, 1, 37, 11, 173, 56,
    29, 13, 44, 4, 9, 7, 2, 14, 6, 154, 985, 3, 17, 3, 13, 3, 218, 6, 12, 4, 1, 15, 12, 4, 56, 8,
    10, 6, 40, 8, 30, 2, 12, 4, 2, 14, 9, 39, 344, 8, 14, 2, 13, 3, 11, 3, 57, 1, 1, 4, 16, 2,
    12, 4, 10, 7, 147, 1, 103, 1029, 42720, 32, 4382, 2, 5774, 2, 7473, 15, 622, 2466, 542, 1506,
    4939, 5, 8490, 707718, 240]

/-- The runs of characters that count and of those that a domain passes over. -/
def ignoredRuns : List Nat :=
  [173, 1, 673, 1, 3599, 2, 1619, 2, 85, 5, 2043, 1, 84, 16, 4340, 1, 52379, 16, 239, 2, 159, 1,
    48383, 3936, 1395, 8, 798597]

/-- The runs of characters that stand for themselves and of those that stand for others. -/
def changedRuns : List Nat :=
  [170, 1, 2, 1, 4, 4, 3, 2, 1, 3, 1, 23, 1, 7, 33, 1, 1, 1, 1, 1, 1, 1, 1, 1, 1, 1, 1, 1, 1, 1,
    1, 1, 1, 1, 1, 1, 1, 1, 1, 1, 1, 1, 1, 1, 1, 1, 1, 1, 1, 1, 1, 1, 1, 1, 1, 1, 1, 1, 1, 1, 1,
    1, 1, 1, 1, 3, 1, 1, 2, 1, 1, 1, 1, 1, 1, 3, 1, 1, 1, 1, 1, 1, 1, 2, 1, 1, 1, 1, 1, 1, 1, 1,
    1, 1, 1, 1, 1, 1, 1, 1, 1, 1, 1, 1, 1, 1, 1, 1, 1, 1, 1, 1, 1, 1, 1, 1, 1, 1, 1, 1, 1, 1, 1,
    1, 1, 1, 1, 1, 1, 2, 1, 1, 1, 1, 1, 1, 1, 2, 1, 1, 1, 2, 1, 3, 2, 4, 1, 2, 1, 3, 3, 2, 1, 2,
    1, 1, 1, 1, 1, 2, 1, 1, 2, 1, 1, 2, 1, 3, 1, 1, 1, 2, 3, 1, 7, 10, 1, 1, 1, 1, 1, 1, 1, 1, 1,
    1, 1, 1, 1, 1, 2, 1, 1, 1, 1, 1, 1, 1, 1, 1, 1, 1, 1, 1, 1, 1, 1, 1, 2, 4, 1, 3, 1, 1, 1, 1,
    1, 1, 1, 1, 1, 1, 1, 1, 1, 1, 1, 1, 1, 1, 1, 1, 1, 1, 1, 1, 1, 1, 1, 1, 1, 1, 1, 1, 1, 1, 1,
    1, 1, 1, 1, 1, 1, 1, 1, 1, 1, 1, 1, 1, 1, 1, 1, 1, 1, 1, 1, 1, 1, 1, 7, 2, 1, 2, 2, 1, 1, 4,
    1, 1, 1, 1, 1, 1, 1, 1, 97, 9, 39, 5, 91, 2, 1, 3, 9, 1, 32, 1, 1, 1, 1, 1, 1, 1, 7, 18, 1,
    27, 35, 8, 1, 1, 1, 1, 1, 1, 1, 1, 1, 1, 1, 1, 1, 1, 1, 1, 1, 1, 1, 1, 1, 1, 1, 1, 1, 3, 1,
    2, 1, 1, 1, 2, 2, 51, 48, 1, 1, 1, 1, 1, 1, 1, 1, 1, 1, 1, 1, 1, 1, 1, 1, 1, 1, 1, 1, 1, 1,
    1, 1, 1, 1, 1, 1, 1, 1, 1, 1, 1, 9, 1, 1, 1, 1, 1, 1, 1, 1, 1, 1, 1, 1, 1, 1, 1, 1, 1, 1, 1,
    1, 1, 1, 1, 1, 1, 1, 1, 1, 1, 1, 1, 1, 1, 1, 1, 1, 1, 1, 1, 1, 1, 1, 1, 1, 1, 1, 1, 1, 1, 1,
    1, 1, 1, 1, 2, 1, 1, 1, 1, 1, 1, 1, 1, 1, 1, 1, 1, 2, 1, 1, 1, 1, 1, 1, 1, 1, 1, 1, 1, 1, 1,
    1, 1, 1, 1, 1, 1, 1, 1, 1, 1, 1, 1, 1, 1, 1, 1, 1, 1, 1, 1, 1, 1, 1, 1, 1, 1, 1, 1, 1, 1, 1,
    1, 1, 1, 1, 1, 1, 1, 1, 1, 1, 1, 1, 1, 1, 1, 1, 1, 1, 1, 1, 1, 1, 1, 1, 1, 1, 1, 1, 1, 1, 1,
    1, 1, 1, 1, 1, 1, 1, 1, 1, 1, 1, 1, 1, 1, 1, 1, 1, 1, 1, 1, 2, 40, 46, 1, 237, 4, 735, 8,
    124, 4, 83, 2, 1, 2, 33, 3, 2, 8, 246, 3, 724, 1, 127, 1, 40, 2, 46, 1, 54, 1, 9, 1, 4, 1, 4,
    1, 4, 1, 12, 1, 9, 1, 1, 5, 7, 1, 17, 1, 9, 1, 4, 1, 4, 1, 4, 1, 12, 1, 230, 48, 44, 1, 98,
    2, 663, 8, 948, 2, 85, 5, 1136, 10, 6, 48, 108, 3, 1, 11, 1, 18, 1, 28, 13, 1, 34, 37, 64, 1,
    1, 1, 1, 1, 1, 1, 1, 1, 1, 1, 1, 1, 1, 1, 1, 1, 1, 1, 1, 1, 1, 1, 1, 1, 1, 1, 1, 1, 1, 1, 1,
    1, 1, 1, 1, 1, 1, 1, 1, 1, 1, 1, 1, 1, 1, 1, 1, 1, 1, 1, 1, 1, 1, 1, 1, 1, 1, 1, 1, 1, 1, 1,
    1, 1, 1, 1, 1, 1, 1, 1, 1, 1, 1, 1, 1, 1, 1, 1, 1, 1, 1, 1, 1, 1, 1, 1, 1, 1, 1, 1, 1, 1, 1,
    1, 1, 1, 1, 1, 1, 1, 1, 1, 1, 1, 1, 1, 1, 1, 1, 1, 1, 1, 1, 1, 1, 1, 1, 1, 1, 1, 1, 1, 1, 1,
    1, 1, 1, 1, 1, 1, 1, 1, 1, 1, 1, 1, 1, 1, 1, 1, 1, 1, 1, 1, 1, 1, 1, 1, 5, 2, 2, 1, 1, 1, 1,
    1, 1, 1, 1, 1, 1, 1, 1, 1, 1, 1, 1, 1, 1, 1, 1, 1, 1, 1, 1, 1, 1, 1, 1, 1, 1, 1, 1, 1, 1, 1,
    1, 1, 1, 1, 1, 1, 1, 1, 1, 1, 1, 1, 1, 1, 1, 1, 1, 1, 1, 1, 1, 1, 1, 1, 1, 1, 1, 1, 1, 1, 1,
    1, 1, 1, 1, 1, 1, 1, 1, 1, 1, 1, 1, 1, 1, 1, 1, 1, 1, 1, 1, 1, 1, 1, 1, 1, 1, 1, 1, 1, 1, 1,
    9, 8, 8, 8, 8, 8, 8, 8, 8, 8, 9, 7, 8, 8, 1, 1, 1, 1, 1, 1, 1, 1, 1, 1, 1, 1, 1, 51, 2, 4, 1,
    15, 1, 9, 3, 3, 2, 8, 3, 1, 4, 14, 1, 21, 5, 1, 33, 2, 1, 2, 4, 1, 26, 1, 8, 64, 8, 1, 89, 2,
    3, 1, 1, 11, 1, 2, 2, 5, 2, 3, 1, 1, 1, 1, 1, 1, 1, 4, 1, 11, 1, 6, 4, 5, 6, 48, 3, 1, 5, 1,
    162, 2, 1, 2, 248, 2, 309, 139, 1313, 1, 104, 2, 101, 1, 291, 48, 48, 1, 1, 3, 2, 1, 1, 1, 1,
    1, 1, 4, 1, 1, 2, 1, 6, 5, 1, 1, 1, 1, 1, 1, 1, 1, 1, 1, 1, 1, 1, 1, 1, 1, 1, 1, 1, 1, 1, 1,
    1, 1, 1, 1, 1, 1, 1, 1, 1, 1, 1, 1, 1, 1, 1, 1, 1, 1, 1, 1, 1, 1, 1, 1, 1, 1, 1, 1, 1, 1, 1,
    1, 1, 1, 1, 1, 1, 1, 1, 1, 1, 1, 1, 1, 1, 1, 1, 1, 1, 1, 1, 1, 1, 1, 1, 1, 1, 1, 1, 1, 1, 1,
    1, 1, 1, 1, 1, 1, 1, 1, 1, 1, 1, 1, 1, 1, 8, 1, 1, 1, 4, 1, 124, 1, 303, 1, 83, 270, 1, 1,
    51, 1, 1, 3, 100, 1, 95, 6, 44, 95, 2, 14, 96, 72, 8, 47, 1, 384, 29248, 1, 1, 1, 1, 1, 1, 1,
    1, 1, 1, 1, 1, 1, 1, 1, 1, 1, 1, 1, 1, 1, 1, 1, 1, 1, 1, 1, 1, 1, 1, 1, 1, 1, 1, 1, 1, 1, 1,
    1, 1, 1, 1, 1, 1, 1, 19, 1, 1, 1, 1, 1, 1, 1, 1, 1, 1, 1, 1, 1, 1, 1, 1, 1, 1, 1, 1, 1, 1, 1,
    1, 1, 1, 1, 1, 2, 132, 1, 1, 1, 1, 1, 1, 1, 1, 1, 1, 1, 1, 1, 3, 1, 1, 1, 1, 1, 1, 1, 1, 1,
    1, 1, 1, 1, 1, 1, 1, 1, 1, 1, 1, 1, 1, 1, 1, 1, 1, 1, 1, 1, 1, 1, 1, 1, 1, 1, 1, 1, 1, 1, 1,
    1, 1, 1, 1, 1, 1, 1, 1, 1, 1, 1, 1, 1, 1, 1, 1, 1, 1, 1, 1, 1, 1, 1, 8, 1, 1, 1, 1, 2, 1, 1,
    1, 1, 1, 1, 1, 1, 4, 1, 1, 1, 2, 1, 1, 1, 3, 1, 1, 1, 1, 1, 1, 1, 1, 1, 1, 1, 1, 1, 1, 1, 1,
    1, 1, 1, 1, 5, 1, 5, 1, 1, 1, 1, 1, 1, 1, 1, 1, 1, 1, 1, 1, 1, 1, 4, 1, 1, 1, 2, 1, 1, 1, 1,
    1, 1, 1, 1, 1, 1, 1, 1, 1, 1, 1, 26, 2, 2, 866, 4, 9, 1, 6, 80, 19776, 270, 2, 1, 1, 1, 2,
    10, 1, 1, 1, 1, 2, 2, 3, 244, 1, 147, 33, 363, 18, 64, 2, 54, 40, 13, 3, 32, 17, 20, 8, 38,
    4, 393, 1024, 40, 136, 40, 152, 39, 490, 127, 1152, 64, 144, 25, 2871, 32, 21888, 32, 64, 27,
    19941, 3936, 214, 36, 1124, 7, 14, 8, 64, 6, 575, 1024, 2096, 95, 2161, 34, 1246, 240, 529,
    10, 5, 31, 1, 32, 26, 3, 35, 1, 111, 96, 2448, 10, 64518, 2048, 721152]

/-- Runs of characters that stand for one of ASCII each: the first, their number, and what the first
stands for; the others follow in order. -/
def spelledRuns : List (Nat × Nat × Nat) :=
  [(170, 1, 97), (178, 2, 50), (185, 1, 49), (186, 1, 111), (383, 1, 115), (688, 1, 104),
    (690, 1, 106), (691, 1, 114), (695, 1, 119), (696, 1, 121), (737, 1, 108), (738, 1, 115),
    (739, 1, 120), (894, 1, 59), (7468, 1, 97), (7470, 1, 98), (7472, 2, 100), (7475, 8, 103),
    (7484, 1, 111), (7486, 1, 112), (7487, 1, 114), (7488, 2, 116), (7490, 1, 119),
    (7491, 1, 97), (7495, 1, 98), (7496, 2, 100), (7501, 1, 103), (7503, 1, 107), (7504, 1, 109),
    (7506, 1, 111), (7510, 1, 112), (7511, 2, 116), (7515, 1, 118), (7522, 1, 105),
    (7523, 1, 114), (7524, 2, 117), (7580, 1, 99), (7584, 1, 102), (7611, 1, 122), (8175, 1, 96),
    (8304, 1, 48), (8305, 1, 105), (8308, 6, 52), (8314, 1, 43), (8316, 1, 61), (8317, 2, 40),
    (8319, 1, 110), (8320, 10, 48), (8330, 1, 43), (8332, 1, 61), (8333, 2, 40), (8336, 1, 97),
    (8337, 1, 101), (8338, 1, 111), (8339, 1, 120), (8341, 1, 104), (8342, 4, 107),
    (8346, 1, 112), (8347, 2, 115), (8450, 1, 99), (8458, 2, 103), (8460, 1, 104),
    (8461, 1, 104), (8462, 1, 104), (8464, 1, 105), (8465, 1, 105), (8466, 1, 108),
    (8467, 1, 108), (8469, 1, 110), (8473, 3, 112), (8476, 1, 114), (8477, 1, 114),
    (8484, 1, 122), (8488, 1, 122), (8490, 1, 107), (8492, 2, 98), (8495, 1, 101),
    (8496, 2, 101), (8499, 1, 109), (8500, 1, 111), (8505, 1, 105), (8517, 1, 100),
    (8518, 2, 100), (8520, 2, 105), (8544, 1, 105), (8548, 1, 118), (8553, 1, 120),
    (8556, 1, 108), (8557, 2, 99), (8559, 1, 109), (8560, 1, 105), (8564, 1, 118),
    (8569, 1, 120), (8572, 1, 108), (8573, 2, 99), (8575, 1, 109), (9312, 9, 49), (9398, 26, 97),
    (9424, 26, 97), (9450, 1, 48), (11388, 1, 106), (11389, 1, 118), (12290, 1, 46),
    (42993, 1, 115), (42994, 1, 99), (42995, 1, 102), (42996, 1, 113), (64297, 1, 43),
    (65040, 1, 44), (65044, 1, 59), (65045, 1, 33), (65075, 1, 95), (65076, 1, 95),
    (65077, 2, 40), (65079, 1, 123), (65080, 1, 125), (65101, 1, 95), (65102, 1, 95),
    (65103, 1, 95), (65104, 1, 44), (65108, 1, 59), (65111, 1, 33), (65113, 2, 40),
    (65115, 1, 123), (65116, 1, 125), (65120, 1, 38), (65121, 2, 42), (65123, 1, 45),
    (65126, 1, 61), (65129, 1, 36), (65281, 2, 33), (65284, 1, 36), (65286, 9, 38),
    (65296, 10, 48), (65307, 1, 59), (65309, 1, 61), (65313, 26, 97), (65343, 29, 95),
    (65373, 2, 125), (65377, 1, 46), (67493, 1, 113), (117974, 26, 97), (118000, 10, 48),
    (119808, 26, 97), (119834, 26, 97), (119860, 26, 97), (119886, 7, 97), (119894, 18, 105),
    (119912, 26, 97), (119938, 26, 97), (119964, 1, 97), (119966, 2, 99), (119970, 1, 103),
    (119973, 2, 106), (119977, 4, 110), (119982, 8, 115), (119990, 4, 97), (119995, 1, 102),
    (119997, 7, 104), (120005, 11, 112), (120016, 26, 97), (120042, 26, 97), (120068, 2, 97),
    (120071, 4, 100), (120077, 8, 106), (120086, 7, 115), (120094, 26, 97), (120120, 2, 97),
    (120123, 4, 100), (120128, 5, 105), (120134, 1, 111), (120138, 7, 115), (120146, 26, 97),
    (120172, 26, 97), (120198, 26, 97), (120224, 26, 97), (120250, 26, 97), (120276, 26, 97),
    (120302, 26, 97), (120328, 26, 97), (120354, 26, 97), (120380, 26, 97), (120406, 26, 97),
    (120432, 26, 97), (120458, 26, 97), (120782, 10, 48), (120792, 10, 48), (120802, 10, 48),
    (120812, 10, 48), (120822, 10, 48), (127275, 1, 99), (127276, 1, 114), (127280, 26, 97),
    (130032, 10, 48)]

/-- Whether a domain may not hold `c`. -/
def isRefused (c : Char) : Bool := Text.inRuns refusedRuns c

/-- Whether a domain passes over `c`. -/
def isIgnored (c : Char) : Bool := Text.inRuns ignoredRuns c

/-- Whether `c` stands for other characters or for none. -/
def isChanged (c : Char) : Bool := Text.inRuns changedRuns c

/-- The character of ASCII that `c` stands for. -/
def spelled? (c : Char) : Option Char :=
  (spelledRuns.find? fun (first, count, _) => first ≤ c.toNat && c.toNat < first + count).map
    fun (first, _, code) => Char.ofNat (code + (c.toNat - first))

/-- **What a domain makes of a character**: letters of ASCII become small. -/
def letters? (c : Char) : Option (List Char) :=
  if c.toNat < 128 then some [c.toLower]
  else if isRefused c then none
  else if isIgnored c then some []
  else some [(spelled? c).getD c]

end ConsoleLens.Url
