import QuadStore.Unicode.Property

/-!
# Case

The mappings of texts to upper and to lower case, and the characters that differ by case alone.
The mappings are by character, except that some characters become several, and that a final sigma
has a lower case form of its own: it is final if, case ignorable characters apart, a cased
character stands before it and none stands behind it.

Most mappings add a number to the code point. They are written as rows of a first code point, how
many there are, the step from one to the next and the number to add.
-/

namespace QuadStore
namespace Unicode

/-- A row of code points and what to add to each. -/
structure Shift where
  first : Nat
  count : Nat
  step : Nat
  delta : Int

namespace Shift

/-- Whether a code point is in the row. -/
def covers (s : Shift) (n : Nat) : Bool :=
  s.first ≤ n && (n - s.first) % s.step == 0 && (n - s.first) / s.step < s.count

/-- The rows written as four numbers each. -/
def listOfRows (rows : List String) : List Shift :=
  (rows.flatMap (·.splitOn " ")).filterMap fun row =>
    match row.splitOn "," with
    | [first, count, step, delta] => do
      some ⟨← first.toNat?, ← count.toNat?, ← step.toNat?, ← delta.toInt?⟩
    | _ => none

/-- A character moved by the first row that covers it. -/
def move (shifts : List Shift) (c : Char) : Char :=
  match shifts.find? (·.covers c.toNat) with
  | some s => Char.ofNat (c.toNat + s.delta).toNat
  | none => c

end Shift

/-- The characters with one character in upper case. -/
def upperShifts : List Shift := Shift.listOfRows
  ["97,26,1,-32 181,1,1,743 224,23,1,-32 248,7,1,-32 255,1,1,121 257,24,2,-1 305,1,1,-232",
   "307,3,2,-1 314,8,2,-1 331,23,2,-1 378,3,2,-1 383,1,1,-300 384,1,1,195 387,2,2,-1 392,1,1,-1",
   "396,1,1,-1 402,1,1,-1 405,1,1,97 409,1,1,-1 410,1,1,163 411,1,1,42561 414,1,1,130 417,3,2,-1",
   "424,1,1,-1 429,1,1,-1 432,1,1,-1 436,2,2,-1 441,1,1,-1 445,1,1,-1 447,1,1,56 453,1,1,-1",
   "454,1,1,-2 456,1,1,-1 457,1,1,-2 459,1,1,-1 460,1,1,-2 462,8,2,-1 477,1,1,-79 479,9,2,-1",
   "498,1,1,-1 499,1,1,-2 501,1,1,-1 505,20,2,-1 547,9,2,-1 572,1,1,-1 575,2,1,10815 578,1,1,-1",
   "583,5,2,-1 592,1,1,10783 593,1,1,10780 594,1,1,10782 595,1,1,-210 596,1,1,-206 598,2,1,-205",
   "601,1,1,-202 603,1,1,-203 604,1,1,42319 608,1,1,-205 609,1,1,42315 611,1,1,-207 612,1,1,42343",
   "613,1,1,42280 614,1,1,42308 616,1,1,-209 617,1,1,-211 618,1,1,42308 619,1,1,10743",
   "620,1,1,42305 623,1,1,-211 625,1,1,10749 626,1,1,-213 629,1,1,-214 637,1,1,10727 640,1,1,-218",
   "642,1,1,42307 643,1,1,-218 647,1,1,42282 648,1,1,-218 649,1,1,-69 650,2,1,-217 652,1,1,-71",
   "658,1,1,-219 669,1,1,42261 670,1,1,42258 837,1,1,84 881,2,2,-1 887,1,1,-1 891,3,1,130",
   "940,1,1,-38 941,3,1,-37 945,17,1,-32 962,1,1,-31 963,9,1,-32 972,1,1,-64 973,2,1,-63",
   "976,1,1,-62 977,1,1,-57 981,1,1,-47 982,1,1,-54 983,1,1,-8 985,12,2,-1 1008,1,1,-86",
   "1009,1,1,-80 1010,1,1,7 1011,1,1,-116 1013,1,1,-96 1016,1,1,-1 1019,1,1,-1 1072,32,1,-32",
   "1104,16,1,-80 1121,17,2,-1 1163,27,2,-1 1218,7,2,-1 1231,1,1,-15 1233,48,2,-1 1377,38,1,-48",
   "4304,43,1,3008 4349,3,1,3008 5112,6,1,-8 7296,1,1,-6254 7297,1,1,-6253 7298,1,1,-6244",
   "7299,2,1,-6242 7301,1,1,-6243 7302,1,1,-6236 7303,1,1,-6181 7304,1,1,35266 7306,1,1,-1",
   "7545,1,1,35332 7549,1,1,3814 7566,1,1,35384 7681,75,2,-1 7835,1,1,-59 7841,48,2,-1 7936,8,1,8",
   "7952,6,1,8 7968,8,1,8 7984,8,1,8 8000,6,1,8 8017,4,2,8 8032,8,1,8 8048,2,1,74 8050,4,1,86",
   "8054,2,1,100 8056,2,1,128 8058,2,1,112 8060,2,1,126 8112,2,1,8 8126,1,1,-7205 8144,2,1,8",
   "8160,2,1,8 8165,1,1,7 8526,1,1,-28 8560,16,1,-16 8580,1,1,-1 9424,26,1,-26 11312,48,1,-48",
   "11361,1,1,-1 11365,1,1,-10795 11366,1,1,-10792 11368,3,2,-1 11379,1,1,-1 11382,1,1,-1",
   "11393,50,2,-1 11500,2,2,-1 11507,1,1,-1 11520,38,1,-7264 11559,1,1,-7264 11565,1,1,-7264",
   "42561,23,2,-1 42625,14,2,-1 42787,7,2,-1 42803,31,2,-1 42874,2,2,-1 42879,5,2,-1 42892,1,1,-1",
   "42897,2,2,-1 42900,1,1,48 42903,10,2,-1 42933,8,2,-1 42952,2,2,-1 42957,8,2,-1 42998,1,1,-1",
   "43859,1,1,-928 43888,80,1,-38864 65345,26,1,-32 66600,40,1,-40 66776,36,1,-40 66967,11,1,-39",
   "66979,15,1,-39 66995,7,1,-39 67003,2,1,-39 68800,51,1,-64 68976,22,1,-32 71872,32,1,-32",
   "93792,32,1,-32 93883,25,1,-27 125218,34,1,-34"]

/-- The characters with several characters in upper case. -/
def upperSequences : List (Char × String) :=
  [('\u00df', "SS"), ('\u0149', "\u02bcN"), ('\u01f0', "J\u030c"),
   ('\u0390', "\u0399\u0308\u0301"), ('\u03b0', "\u03a5\u0308\u0301"),
   ('\u0587', "\u0535\u0552"), ('\u1e96', "H\u0331"), ('\u1e97', "T\u0308"),
   ('\u1e98', "W\u030a"), ('\u1e99', "Y\u030a"), ('\u1e9a', "A\u02be"),
   ('\u1f50', "\u03a5\u0313"), ('\u1f52', "\u03a5\u0313\u0300"),
   ('\u1f54', "\u03a5\u0313\u0301"), ('\u1f56', "\u03a5\u0313\u0342"),
   ('\u1f80', "\u1f08\u0399"), ('\u1f81', "\u1f09\u0399"), ('\u1f82', "\u1f0a\u0399"),
   ('\u1f83', "\u1f0b\u0399"), ('\u1f84', "\u1f0c\u0399"), ('\u1f85', "\u1f0d\u0399"),
   ('\u1f86', "\u1f0e\u0399"), ('\u1f87', "\u1f0f\u0399"), ('\u1f88', "\u1f08\u0399"),
   ('\u1f89', "\u1f09\u0399"), ('\u1f8a', "\u1f0a\u0399"), ('\u1f8b', "\u1f0b\u0399"),
   ('\u1f8c', "\u1f0c\u0399"), ('\u1f8d', "\u1f0d\u0399"), ('\u1f8e', "\u1f0e\u0399"),
   ('\u1f8f', "\u1f0f\u0399"), ('\u1f90', "\u1f28\u0399"), ('\u1f91', "\u1f29\u0399"),
   ('\u1f92', "\u1f2a\u0399"), ('\u1f93', "\u1f2b\u0399"), ('\u1f94', "\u1f2c\u0399"),
   ('\u1f95', "\u1f2d\u0399"), ('\u1f96', "\u1f2e\u0399"), ('\u1f97', "\u1f2f\u0399"),
   ('\u1f98', "\u1f28\u0399"), ('\u1f99', "\u1f29\u0399"), ('\u1f9a', "\u1f2a\u0399"),
   ('\u1f9b', "\u1f2b\u0399"), ('\u1f9c', "\u1f2c\u0399"), ('\u1f9d', "\u1f2d\u0399"),
   ('\u1f9e', "\u1f2e\u0399"), ('\u1f9f', "\u1f2f\u0399"), ('\u1fa0', "\u1f68\u0399"),
   ('\u1fa1', "\u1f69\u0399"), ('\u1fa2', "\u1f6a\u0399"), ('\u1fa3', "\u1f6b\u0399"),
   ('\u1fa4', "\u1f6c\u0399"), ('\u1fa5', "\u1f6d\u0399"), ('\u1fa6', "\u1f6e\u0399"),
   ('\u1fa7', "\u1f6f\u0399"), ('\u1fa8', "\u1f68\u0399"), ('\u1fa9', "\u1f69\u0399"),
   ('\u1faa', "\u1f6a\u0399"), ('\u1fab', "\u1f6b\u0399"), ('\u1fac', "\u1f6c\u0399"),
   ('\u1fad', "\u1f6d\u0399"), ('\u1fae', "\u1f6e\u0399"), ('\u1faf', "\u1f6f\u0399"),
   ('\u1fb2', "\u1fba\u0399"), ('\u1fb3', "\u0391\u0399"), ('\u1fb4', "\u0386\u0399"),
   ('\u1fb6', "\u0391\u0342"), ('\u1fb7', "\u0391\u0342\u0399"), ('\u1fbc', "\u0391\u0399"),
   ('\u1fc2', "\u1fca\u0399"), ('\u1fc3', "\u0397\u0399"), ('\u1fc4', "\u0389\u0399"),
   ('\u1fc6', "\u0397\u0342"), ('\u1fc7', "\u0397\u0342\u0399"), ('\u1fcc', "\u0397\u0399"),
   ('\u1fd2', "\u0399\u0308\u0300"), ('\u1fd3', "\u0399\u0308\u0301"),
   ('\u1fd6', "\u0399\u0342"), ('\u1fd7', "\u0399\u0308\u0342"),
   ('\u1fe2', "\u03a5\u0308\u0300"), ('\u1fe3', "\u03a5\u0308\u0301"),
   ('\u1fe4', "\u03a1\u0313"), ('\u1fe6', "\u03a5\u0342"), ('\u1fe7', "\u03a5\u0308\u0342"),
   ('\u1ff2', "\u1ffa\u0399"), ('\u1ff3', "\u03a9\u0399"), ('\u1ff4', "\u038f\u0399"),
   ('\u1ff6', "\u03a9\u0342"), ('\u1ff7', "\u03a9\u0342\u0399"), ('\u1ffc', "\u03a9\u0399"),
   ('\ufb00', "FF"), ('\ufb01', "FI"), ('\ufb02', "FL"), ('\ufb03', "FFI"), ('\ufb04', "FFL"),
   ('\ufb05', "ST"), ('\ufb06', "ST"), ('\ufb13', "\u0544\u0546"), ('\ufb14', "\u0544\u0535"),
   ('\ufb15', "\u0544\u053b"), ('\ufb16', "\u054e\u0546"), ('\ufb17', "\u0544\u053d")]

/-- The characters with one character in lower case. -/
def lowerShifts : List Shift := Shift.listOfRows
  ["65,26,1,32 192,23,1,32 216,7,1,32 256,24,2,1 306,3,2,1 313,8,2,1 330,23,2,1 376,1,1,-121",
   "377,3,2,1 385,1,1,210 386,2,2,1 390,1,1,206 391,1,1,1 393,2,1,205 395,1,1,1 398,1,1,79",
   "399,1,1,202 400,1,1,203 401,1,1,1 403,1,1,205 404,1,1,207 406,1,1,211 407,1,1,209 408,1,1,1",
   "412,1,1,211 413,1,1,213 415,1,1,214 416,3,2,1 422,1,1,218 423,1,1,1 425,1,1,218 428,1,1,1",
   "430,1,1,218 431,1,1,1 433,2,1,217 435,2,2,1 439,1,1,219 440,1,1,1 444,1,1,1 452,1,1,2",
   "453,1,1,1 455,1,1,2 456,1,1,1 458,1,1,2 459,9,2,1 478,9,2,1 497,1,1,2 498,2,2,1 502,1,1,-97",
   "503,1,1,-56 504,20,2,1 544,1,1,-130 546,9,2,1 570,1,1,10795 571,1,1,1 573,1,1,-163",
   "574,1,1,10792 577,1,1,1 579,1,1,-195 580,1,1,69 581,1,1,71 582,5,2,1 880,2,2,1 886,1,1,1",
   "895,1,1,116 902,1,1,38 904,3,1,37 908,1,1,64 910,2,1,63 913,17,1,32 931,9,1,32 975,1,1,8",
   "984,12,2,1 1012,1,1,-60 1015,1,1,1 1017,1,1,-7 1018,1,1,1 1021,3,1,-130 1024,16,1,80",
   "1040,32,1,32 1120,17,2,1 1162,27,2,1 1216,1,1,15 1217,7,2,1 1232,48,2,1 1329,38,1,48",
   "4256,38,1,7264 4295,1,1,7264 4301,1,1,7264 5024,80,1,38864 5104,6,1,8 7305,1,1,1",
   "7312,43,1,-3008 7357,3,1,-3008 7680,75,2,1 7838,1,1,-7615 7840,48,2,1 7944,8,1,-8 7960,6,1,-8",
   "7976,8,1,-8 7992,8,1,-8 8008,6,1,-8 8025,4,2,-8 8040,8,1,-8 8072,8,1,-8 8088,8,1,-8",
   "8104,8,1,-8 8120,2,1,-8 8122,2,1,-74 8124,1,1,-9 8136,4,1,-86 8140,1,1,-9 8152,2,1,-8",
   "8154,2,1,-100 8168,2,1,-8 8170,2,1,-112 8172,1,1,-7 8184,2,1,-128 8186,2,1,-126 8188,1,1,-9",
   "8486,1,1,-7517 8490,1,1,-8383 8491,1,1,-8262 8498,1,1,28 8544,16,1,16 8579,1,1,1 9398,26,1,26",
   "11264,48,1,48 11360,1,1,1 11362,1,1,-10743 11363,1,1,-3814 11364,1,1,-10727 11367,3,2,1",
   "11373,1,1,-10780 11374,1,1,-10749 11375,1,1,-10783 11376,1,1,-10782 11378,1,1,1 11381,1,1,1",
   "11390,2,1,-10815 11392,50,2,1 11499,2,2,1 11506,1,1,1 42560,23,2,1 42624,14,2,1 42786,7,2,1",
   "42802,31,2,1 42873,2,2,1 42877,1,1,-35332 42878,5,2,1 42891,1,1,1 42893,1,1,-42280 42896,2,2,1",
   "42902,10,2,1 42922,1,1,-42308 42923,1,1,-42319 42924,1,1,-42315 42925,1,1,-42305",
   "42926,1,1,-42308 42928,1,1,-42258 42929,1,1,-42282 42930,1,1,-42261 42931,1,1,928 42932,8,2,1",
   "42948,1,1,-48 42949,1,1,-42307 42950,1,1,-35384 42951,2,2,1 42955,1,1,-42343 42956,8,2,1",
   "42972,1,1,-42561 42997,1,1,1 65313,26,1,32 66560,40,1,40 66736,36,1,40 66928,11,1,39",
   "66940,15,1,39 66956,7,1,39 66964,2,1,39 68736,51,1,64 68944,22,1,32 71840,32,1,32",
   "93760,32,1,32 93856,25,1,27 125184,34,1,34"]

/-- The characters that differ by case alone from an earlier one, and this one. -/
def foldShifts : List Shift := Shift.listOfRows
  ["97,26,1,-32 224,23,1,-32 248,7,1,-32 257,24,2,-1 307,3,2,-1 314,8,2,-1 331,23,2,-1",
   "376,1,1,-121 378,3,2,-1 383,1,1,-300 387,2,2,-1 392,1,1,-1 396,1,1,-1 402,1,1,-1 409,1,1,-1",
   "417,3,2,-1 424,1,1,-1 429,1,1,-1 432,1,1,-1 436,2,2,-1 441,1,1,-1 445,1,1,-1 453,1,1,-1",
   "454,1,1,-2 456,1,1,-1 457,1,1,-2 459,1,1,-1 460,1,1,-2 462,8,2,-1 477,1,1,-79 479,9,2,-1",
   "498,1,1,-1 499,1,1,-2 501,1,1,-1 502,1,1,-97 503,1,1,-56 505,20,2,-1 544,1,1,-130 547,9,2,-1",
   "572,1,1,-1 573,1,1,-163 578,1,1,-1 579,1,1,-195 583,5,2,-1 595,1,1,-210 596,1,1,-206",
   "598,2,1,-205 601,1,1,-202 603,1,1,-203 608,1,1,-205 611,1,1,-207 616,1,1,-209 617,1,1,-211",
   "623,1,1,-211 626,1,1,-213 629,1,1,-214 640,1,1,-218 643,1,1,-218 648,1,1,-218 649,1,1,-69",
   "650,2,1,-217 652,1,1,-71 658,1,1,-219 881,2,2,-1 887,1,1,-1 921,1,1,-84 924,1,1,-743",
   "940,1,1,-38 941,3,1,-37 945,8,1,-32 953,1,1,-116 954,2,1,-32 956,1,1,-775 957,5,1,-32",
   "962,1,1,-31 963,9,1,-32 972,1,1,-64 973,2,1,-63 976,1,1,-62 977,1,1,-57 981,1,1,-47",
   "982,1,1,-54 983,1,1,-8 985,12,2,-1 1008,1,1,-86 1009,1,1,-80 1011,1,1,-116 1012,1,1,-92",
   "1013,1,1,-96 1016,1,1,-1 1017,1,1,-7 1019,1,1,-1 1021,3,1,-130 1072,32,1,-32 1104,16,1,-80",
   "1121,17,2,-1 1163,27,2,-1 1218,7,2,-1 1231,1,1,-15 1233,48,2,-1 1377,38,1,-48 5112,6,1,-8",
   "7296,1,1,-6254 7297,1,1,-6253 7298,1,1,-6244 7299,2,1,-6242 7301,1,1,-6243 7302,1,1,-6236",
   "7303,1,1,-6181 7306,1,1,-1 7312,43,1,-3008 7357,3,1,-3008 7681,75,2,-1 7835,1,1,-59",
   "7838,1,1,-7615 7841,48,2,-1 7944,8,1,-8 7960,6,1,-8 7976,8,1,-8 7992,8,1,-8 8008,6,1,-8",
   "8025,4,2,-8 8040,8,1,-8 8072,8,1,-8 8088,8,1,-8 8104,8,1,-8 8120,2,1,-8 8122,2,1,-74",
   "8124,1,1,-9 8126,1,1,-7289 8136,4,1,-86 8140,1,1,-9 8147,1,1,-7235 8152,2,1,-8 8154,2,1,-100",
   "8163,1,1,-7219 8168,2,1,-8 8170,2,1,-112 8172,1,1,-7 8184,2,1,-128 8186,2,1,-126 8188,1,1,-9",
   "8486,1,1,-7549 8490,1,1,-8415 8491,1,1,-8294 8526,1,1,-28 8560,16,1,-16 8580,1,1,-1",
   "9424,26,1,-26 11312,48,1,-48 11361,1,1,-1 11362,1,1,-10743 11363,1,1,-3814 11364,1,1,-10727",
   "11365,1,1,-10795 11366,1,1,-10792 11368,3,2,-1 11373,1,1,-10780 11374,1,1,-10749",
   "11375,1,1,-10783 11376,1,1,-10782 11379,1,1,-1 11382,1,1,-1 11390,2,1,-10815 11393,50,2,-1",
   "11500,2,2,-1 11507,1,1,-1 11520,38,1,-7264 11559,1,1,-7264 11565,1,1,-7264 42561,5,2,-1",
   "42570,1,1,-35266 42571,1,1,-35267 42573,17,2,-1 42625,14,2,-1 42787,7,2,-1 42803,31,2,-1",
   "42874,2,2,-1 42877,1,1,-35332 42879,5,2,-1 42892,1,1,-1 42893,1,1,-42280 42897,2,2,-1",
   "42903,10,2,-1 42922,1,1,-42308 42923,1,1,-42319 42924,1,1,-42315 42925,1,1,-42305",
   "42926,1,1,-42308 42928,1,1,-42258 42929,1,1,-42282 42930,1,1,-42261 42933,8,2,-1 42948,1,1,-48",
   "42949,1,1,-42307 42950,1,1,-35384 42952,2,2,-1 42955,1,1,-42343 42957,8,2,-1 42972,1,1,-42561",
   "42998,1,1,-1 43859,1,1,-928 43888,80,1,-38864 64262,1,1,-1 65345,26,1,-32 66600,40,1,-40",
   "66776,36,1,-40 66967,11,1,-39 66979,15,1,-39 66995,7,1,-39 67003,2,1,-39 68800,51,1,-64",
   "68976,22,1,-32 71872,32,1,-32 93792,32,1,-32 93883,25,1,-27 125218,34,1,-34"]

/-- A character in upper case. -/
def upper (c : Char) : List Char :=
  if c.toNat < 0x80 then [c.toUpper]
  else
    match upperSequences.lookup c with
    | some cs => cs.toList
    | none => [Shift.move upperShifts c]

/-- A character in lower case, without regard to its place. -/
def lower (c : Char) : List Char :=
  if c.toNat < 0x80 then [c.toLower]
  else if c = '\u0130' then ['i', '\u0307']
  else [Shift.move lowerShifts c]

/-- Whether the first character that is not case ignorable is cased. -/
def startsCased (cs : List Char) : Bool := (cs.find? (!isCaseIgnorable ·)).any isCased

/-- The lower case of some characters, given those before them from the last to the first. -/
def lowerFrom (before : List Char) : List Char → List Char
  | [] => []
  | c :: after =>
    let image :=
      if c = '\u03a3' then
        if startsCased before && !startsCased after then ['\u03c2'] else ['\u03c3']
      else lower c
    image ++ lowerFrom (c :: before) after

/-- A text in upper case. -/
def upperText (s : String) : String := String.ofList (s.toList.flatMap upper)

/-- A text in lower case. -/
def lowerText (s : String) : String := String.ofList (lowerFrom [] s.toList)

/-- The first of the characters that differ from one by case alone. -/
def foldChar (c : Char) : Char := Shift.move foldShifts c

/-- All characters that differ from one by case alone, itself included. -/
def caseVariants (c : Char) : List Char :=
  let base := foldChar c
  base :: foldShifts.filterMap fun s =>
    let n : Int := base.toNat - s.delta
    if 0 ≤ n && s.covers n.toNat then some (Char.ofNat n.toNat) else none

end Unicode
end QuadStore
