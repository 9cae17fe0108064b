import Dialects.Text.Ranges

/-!
# Recent letters

Names are spelled in the letters, marks and numerals of Unicode 11, whereas all else follows
Unicode 14. What the versions in between have brought is listed here.
-/

namespace Dialects.CodePoint

/-- The code points of the general categories L, Nl, Mn, Mc, Nd and Pc that Unicode 11 leaves
unassigned. -/
def recentLetters : Ranges :=
  [(0x0870, 0x0887), (0x0889, 0x088E), (0x0898, 0x089F), (0x08B5, 0x08B5), (0x08BE, 0x08D2),
   (0x0B55, 0x0B55), (0x0C3C, 0x0C3C), (0x0C5D, 0x0C5D), (0x0CDD, 0x0CDD), (0x0D04, 0x0D04),
   (0x0D81, 0x0D81), (0x0E86, 0x0E86), (0x0E89, 0x0E89), (0x0E8C, 0x0E8C), (0x0E8E, 0x0E93),
   (0x0E98, 0x0E98), (0x0EA0, 0x0EA0), (0x0EA8, 0x0EA9), (0x0EAC, 0x0EAC), (0x0EBA, 0x0EBA),
   (0x170D, 0x170D), (0x1715, 0x1715), (0x171F, 0x171F), (0x180F, 0x180F), (0x1ABF, 0x1ACE),
   (0x1B4C, 0x1B4C), (0x1CFA, 0x1CFA), (0x1DFA, 0x1DFA), (0x2C2F, 0x2C2F), (0x2C5F, 0x2C5F),
   (0x31BB, 0x31BF), (0x4DB6, 0x4DBF), (0x9FF0, 0x9FFF), (0xA7BA, 0xA7CA), (0xA7D0, 0xA7D1),
   (0xA7D3, 0xA7D3), (0xA7D5, 0xA7D9), (0xA7F2, 0xA7F6), (0xA82C, 0xA82C), (0xAB66, 0xAB69),
   (0x10570, 0x1057A), (0x1057C, 0x1058A), (0x1058C, 0x10592), (0x10594, 0x10595),
   (0x10597, 0x105A1), (0x105A3, 0x105B1), (0x105B3, 0x105B9), (0x105BB, 0x105BC),
   (0x10780, 0x10785), (0x10787, 0x107B0), (0x107B2, 0x107BA), (0x10E80, 0x10EA9),
   (0x10EAB, 0x10EAC), (0x10EB0, 0x10EB1), (0x10F70, 0x10F85), (0x10FB0, 0x10FC4),
   (0x10FE0, 0x10FF6), (0x11070, 0x11075), (0x110C2, 0x110C2), (0x11147, 0x11147),
   (0x111CE, 0x111CF), (0x1145F, 0x11461), (0x116B8, 0x116B8), (0x11740, 0x11746),
   (0x11900, 0x11906), (0x11909, 0x11909), (0x1190C, 0x11913), (0x11915, 0x11916),
   (0x11918, 0x11935), (0x11937, 0x11938), (0x1193B, 0x11943), (0x11950, 0x11959),
   (0x119A0, 0x119A7), (0x119AA, 0x119D7), (0x119DA, 0x119E1), (0x119E3, 0x119E4),
   (0x11A84, 0x11A85), (0x11AB0, 0x11ABF), (0x11FB0, 0x11FB0), (0x12F90, 0x12FF0),
   (0x16A70, 0x16ABE), (0x16AC0, 0x16AC9), (0x16F45, 0x16F4A), (0x16F4F, 0x16F4F),
   (0x16F7F, 0x16F87), (0x16FE3, 0x16FE4), (0x16FF0, 0x16FF1), (0x187F2, 0x187F7),
   (0x18AF3, 0x18CD5), (0x18D00, 0x18D08), (0x1AFF0, 0x1AFF3), (0x1AFF5, 0x1AFFB),
   (0x1AFFD, 0x1AFFE), (0x1B11F, 0x1B122), (0x1B150, 0x1B152), (0x1B164, 0x1B167),
   (0x1CF00, 0x1CF2D), (0x1CF30, 0x1CF46), (0x1DF00, 0x1DF1E), (0x1E100, 0x1E12C),
   (0x1E130, 0x1E13D), (0x1E140, 0x1E149), (0x1E14E, 0x1E14E), (0x1E290, 0x1E2AE),
   (0x1E2C0, 0x1E2F9), (0x1E7E0, 0x1E7E6), (0x1E7E8, 0x1E7EB), (0x1E7ED, 0x1E7EE),
   (0x1E7F0, 0x1E7FE), (0x1E94B, 0x1E94B), (0x1FBF0, 0x1FBF9), (0x2A6D7, 0x2A6DF),
   (0x2B735, 0x2B738), (0x30000, 0x3134A)]

/-- The letters that were marks in Unicode 11: two signs of Vedic Sanskrit. -/
def formerMarks : Ranges := [(0x1CF2, 0x1CF3)]

/-- A letter, mark or decimal digit that Unicode 11 does not have. -/
def isRecent (c : CodePoint) : Bool := recentLetters.contains c.val

/-- A letter that was a mark in Unicode 11. -/
def isFormerMark (c : CodePoint) : Bool := formerMarks.contains c.val

end Dialects.CodePoint
