import Outline.Text.CodeRange

/-!
# The tables behind word tokens

Which characters separate tokens, which combining marks belong to the token that they follow, and
how the remaining characters are folded: letters lose their case and the common Latin diacritics.
-/

namespace Outline.Text.Token

/-- Characters that belong to no token, unless they are marks that follow one. -/
def separatorRanges : CodeRanges := [
  (0x0, 0x2f), (0x3a, 0x40), (0x5b, 0x60), (0x7b, 0xa9), (0xab, 0xb1), (0xb4, 0xb4),
  (0xb6, 0xb8), (0xbb, 0xbb), (0xbf, 0xbf), (0xd7, 0xd7), (0xf7, 0xf7), (0x2c2, 0x2c5),
  (0x2d2, 0x2df), (0x2e5, 0x2eb), (0x2ed, 0x2ed), (0x2ef, 0x2ff), (0x305, 0x305), (0x30d, 0x30e),
  (0x310, 0x310), (0x312, 0x31a), (0x31c, 0x322), (0x329, 0x32c), (0x32f, 0x32f), (0x332, 0x36f),
  (0x375, 0x375), (0x37e, 0x37e), (0x384, 0x385), (0x387, 0x387), (0x3f6, 0x3f6), (0x482, 0x489),
  (0x55a, 0x55f), (0x589, 0x58a), (0x58f, 0x58f), (0x591, 0x5c7), (0x5f3, 0x5f4), (0x600, 0x604),
  (0x606, 0x61b), (0x61e, 0x61f), (0x64b, 0x65f), (0x66a, 0x66d), (0x670, 0x670), (0x6d4, 0x6d4),
  (0x6d6, 0x6e4), (0x6e7, 0x6ed), (0x6fd, 0x6fe), (0x700, 0x70d), (0x70f, 0x70f), (0x711, 0x711),
  (0x730, 0x74a), (0x7a6, 0x7b0), (0x7eb, 0x7f3), (0x7f6, 0x7f9), (0x816, 0x819), (0x81b, 0x823),
  (0x825, 0x827), (0x829, 0x82d), (0x830, 0x83e), (0x859, 0x85b), (0x85e, 0x85e), (0x8e4, 0x8fe),
  (0x900, 0x903), (0x93a, 0x93c), (0x93e, 0x94f), (0x951, 0x957), (0x962, 0x965), (0x970, 0x970),
  (0x981, 0x983), (0x9bc, 0x9bc), (0x9be, 0x9c4), (0x9c7, 0x9c8), (0x9cb, 0x9cd), (0x9d7, 0x9d7),
  (0x9e2, 0x9e3), (0x9f2, 0x9f3), (0x9fa, 0x9fb), (0xa01, 0xa03), (0xa3c, 0xa3c), (0xa3e, 0xa42),
  (0xa47, 0xa48), (0xa4b, 0xa4d), (0xa51, 0xa51), (0xa70, 0xa71), (0xa75, 0xa75), (0xa81, 0xa83),
  (0xabc, 0xabc), (0xabe, 0xac5), (0xac7, 0xac9), (0xacb, 0xacd), (0xae2, 0xae3), (0xaf0, 0xaf1),
  (0xb01, 0xb03), (0xb3c, 0xb3c), (0xb3e, 0xb44), (0xb47, 0xb48), (0xb4b, 0xb4d), (0xb56, 0xb57),
  (0xb62, 0xb63), (0xb70, 0xb70), (0xb82, 0xb82), (0xbbe, 0xbc2), (0xbc6, 0xbc8), (0xbca, 0xbcd),
  (0xbd7, 0xbd7), (0xbf3, 0xbfa), (0xc01, 0xc03), (0xc3e, 0xc44), (0xc46, 0xc48), (0xc4a, 0xc4d),
  (0xc55, 0xc56), (0xc62, 0xc63), (0xc7f, 0xc7f), (0xc82, 0xc83), (0xcbc, 0xcbc), (0xcbe, 0xcc4),
  (0xcc6, 0xcc8), (0xcca, 0xccd), (0xcd5, 0xcd6), (0xce2, 0xce3), (0xd02, 0xd03), (0xd3e, 0xd44),
  (0xd46, 0xd48), (0xd4a, 0xd4d), (0xd57, 0xd57), (0xd62, 0xd63), (0xd79, 0xd79), (0xd82, 0xd83),
  (0xdca, 0xdca), (0xdcf, 0xdd4), (0xdd6, 0xdd6), (0xdd8, 0xddf), (0xdf2, 0xdf4), (0xe31, 0xe31),
  (0xe34, 0xe3a), (0xe3f, 0xe3f), (0xe47, 0xe4f), (0xe5a, 0xe5b), (0xeb1, 0xeb1), (0xeb4, 0xeb9),
  (0xebb, 0xebc), (0xec8, 0xecd), (0xf01, 0xf1f), (0xf34, 0xf3f), (0xf71, 0xf87), (0xf8d, 0xf97),
  (0xf99, 0xfbc), (0xfbe, 0xfcc), (0xfce, 0xfda), (0x102b, 0x103e), (0x104a, 0x104f),
  (0x1056, 0x1059), (0x105e, 0x1060), (0x1062, 0x1064), (0x1067, 0x106d), (0x1071, 0x1074),
  (0x1082, 0x108d), (0x108f, 0x108f), (0x109a, 0x109f), (0x10fb, 0x10fb), (0x135d, 0x1368),
  (0x1390, 0x1399), (0x1400, 0x1400), (0x166d, 0x166e), (0x1680, 0x1680), (0x169b, 0x169c),
  (0x16eb, 0x16ed), (0x1712, 0x1714), (0x1732, 0x1736), (0x1752, 0x1753), (0x1772, 0x1773),
  (0x17b4, 0x17d6), (0x17d8, 0x17db), (0x17dd, 0x17dd), (0x1800, 0x180e), (0x18a9, 0x18a9),
  (0x1920, 0x192b), (0x1930, 0x193b), (0x1940, 0x1940), (0x1944, 0x1945), (0x19b0, 0x19c0),
  (0x19c8, 0x19c9), (0x19de, 0x19ff), (0x1a17, 0x1a1b), (0x1a1e, 0x1a1f), (0x1a55, 0x1a5e),
  (0x1a60, 0x1a7c), (0x1a7f, 0x1a7f), (0x1aa0, 0x1aa6), (0x1aa8, 0x1aad), (0x1b00, 0x1b04),
  (0x1b34, 0x1b44), (0x1b5a, 0x1b7c), (0x1b80, 0x1b82), (0x1ba1, 0x1bad), (0x1be6, 0x1bf3),
  (0x1bfc, 0x1bff), (0x1c24, 0x1c37), (0x1c3b, 0x1c3f), (0x1c7e, 0x1c7f), (0x1cc0, 0x1cc7),
  (0x1cd0, 0x1ce8), (0x1ced, 0x1ced), (0x1cf2, 0x1cf4), (0x1dc0, 0x1de6), (0x1dfc, 0x1dff),
  (0x1fbd, 0x1fbd), (0x1fbf, 0x1fc1), (0x1fcd, 0x1fcf), (0x1fdd, 0x1fdf), (0x1fed, 0x1fef),
  (0x1ffd, 0x1ffe), (0x2000, 0x2064), (0x206a, 0x206f), (0x207a, 0x207e), (0x208a, 0x208e),
  (0x20a0, 0x20b9), (0x20d0, 0x20f0), (0x2100, 0x2101), (0x2103, 0x2106), (0x2108, 0x2109),
  (0x2114, 0x2114), (0x2116, 0x2118), (0x211e, 0x2123), (0x2125, 0x2125), (0x2127, 0x2127),
  (0x2129, 0x2129), (0x212e, 0x212e), (0x213a, 0x213b), (0x2140, 0x2144), (0x214a, 0x214d),
  (0x214f, 0x214f), (0x2190, 0x23f3), (0x2400, 0x2426), (0x2440, 0x244a), (0x249c, 0x24e9),
  (0x2500, 0x26ff), (0x2701, 0x2775), (0x2794, 0x2b4c), (0x2b50, 0x2b59), (0x2ce5, 0x2cea),
  (0x2cef, 0x2cf1), (0x2cf9, 0x2cfc), (0x2cfe, 0x2cff), (0x2d70, 0x2d70), (0x2d7f, 0x2d7f),
  (0x2de0, 0x2e2e), (0x2e30, 0x2e3b), (0x2e80, 0x2e99), (0x2e9b, 0x2ef3), (0x2f00, 0x2fd5),
  (0x2ff0, 0x2ffb), (0x3000, 0x3004), (0x3008, 0x3020), (0x302a, 0x3030), (0x3036, 0x3037),
  (0x303d, 0x303f), (0x3099, 0x309c), (0x30a0, 0x30a0), (0x30fb, 0x30fb), (0x3190, 0x3191),
  (0x3196, 0x319f), (0x31c0, 0x31e3), (0x3200, 0x321e), (0x322a, 0x3247), (0x3250, 0x3250),
  (0x3260, 0x327f), (0x328a, 0x32b0), (0x32c0, 0x32fe), (0x3300, 0x33ff), (0x4dc0, 0x4dff),
  (0xa490, 0xa4c6), (0xa4fe, 0xa4ff), (0xa60d, 0xa60f), (0xa66f, 0xa67e), (0xa69f, 0xa69f),
  (0xa6f0, 0xa6f7), (0xa700, 0xa716), (0xa720, 0xa721), (0xa789, 0xa78a), (0xa802, 0xa802),
  (0xa806, 0xa806), (0xa80b, 0xa80b), (0xa823, 0xa82b), (0xa836, 0xa839), (0xa874, 0xa877),
  (0xa880, 0xa881), (0xa8b4, 0xa8c4), (0xa8ce, 0xa8cf), (0xa8e0, 0xa8f1), (0xa8f8, 0xa8fa),
  (0xa926, 0xa92f), (0xa947, 0xa953), (0xa95f, 0xa95f), (0xa980, 0xa983), (0xa9b3, 0xa9cd),
  (0xa9de, 0xa9df), (0xaa29, 0xaa36), (0xaa43, 0xaa43), (0xaa4c, 0xaa4d), (0xaa5c, 0xaa5f),
  (0xaa77, 0xaa79), (0xaa7b, 0xaa7b), (0xaab0, 0xaab0), (0xaab2, 0xaab4), (0xaab7, 0xaab8),
  (0xaabe, 0xaabf), (0xaac1, 0xaac1), (0xaade, 0xaadf), (0xaaeb, 0xaaf1), (0xaaf5, 0xaaf6),
  (0xabe3, 0xabed), (0xfb1e, 0xfb1e), (0xfb29, 0xfb29), (0xfbb2, 0xfbc1), (0xfd3e, 0xfd3f),
  (0xfdfc, 0xfdfd), (0xfe00, 0xfe19), (0xfe20, 0xfe26), (0xfe30, 0xfe52), (0xfe54, 0xfe66),
  (0xfe68, 0xfe6b), (0xfeff, 0xfeff), (0xff01, 0xff0f), (0xff1a, 0xff20), (0xff3b, 0xff40),
  (0xff5b, 0xff65), (0xffe0, 0xffe6), (0xffe8, 0xffee), (0xfff9, 0xffff), (0x10100, 0x10102),
  (0x10137, 0x1013f), (0x10179, 0x10189), (0x10190, 0x1019b), (0x101d0, 0x101fd),
  (0x1039f, 0x1039f), (0x103d0, 0x103d0), (0x10857, 0x10857), (0x1091f, 0x1091f),
  (0x1093f, 0x1093f), (0x10a01, 0x10a03), (0x10a05, 0x10a06), (0x10a0c, 0x10a0f),
  (0x10a38, 0x10a3a), (0x10a3f, 0x10a3f), (0x10a50, 0x10a58), (0x10a7f, 0x10a7f),
  (0x10b39, 0x10b3f), (0x11000, 0x11002), (0x11038, 0x1104d), (0x11080, 0x11082),
  (0x110b0, 0x110c1), (0x11100, 0x11102), (0x11127, 0x11134), (0x11140, 0x11143),
  (0x11180, 0x11182), (0x111b3, 0x111c0), (0x111c5, 0x111c8), (0x116ab, 0x116b7),
  (0x12470, 0x12473), (0x16f51, 0x16f7e), (0x16f8f, 0x16f92), (0x1d000, 0x1d0f5),
  (0x1d100, 0x1d126), (0x1d129, 0x1d1dd), (0x1d200, 0x1d245), (0x1d300, 0x1d356),
  (0x1d6c1, 0x1d6c1), (0x1d6db, 0x1d6db), (0x1d6fb, 0x1d6fb), (0x1d715, 0x1d715),
  (0x1d735, 0x1d735), (0x1d74f, 0x1d74f), (0x1d76f, 0x1d76f), (0x1d789, 0x1d789),
  (0x1d7a9, 0x1d7a9), (0x1d7c3, 0x1d7c3), (0x1eef0, 0x1eef1), (0x1f000, 0x1f02b),
  (0x1f030, 0x1f093), (0x1f0a0, 0x1f0ae), (0x1f0b1, 0x1f0be), (0x1f0c1, 0x1f0cf),
  (0x1f0d1, 0x1f0df), (0x1f110, 0x1f12e), (0x1f130, 0x1f16b), (0x1f170, 0x1f19a),
  (0x1f1e6, 0x1f202), (0x1f210, 0x1f23a), (0x1f240, 0x1f248), (0x1f250, 0x1f251),
  (0x1f300, 0x1f320), (0x1f330, 0x1f335), (0x1f337, 0x1f37c), (0x1f380, 0x1f393),
  (0x1f3a0, 0x1f3c4), (0x1f3c6, 0x1f3ca), (0x1f3e0, 0x1f3f0), (0x1f400, 0x1f43e),
  (0x1f440, 0x1f440), (0x1f442, 0x1f4f7), (0x1f4f9, 0x1f4fc), (0x1f500, 0x1f53d),
  (0x1f540, 0x1f543), (0x1f550, 0x1f567), (0x1f5fb, 0x1f640), (0x1f645, 0x1f64f),
  (0x1f680, 0x1f6c5), (0x1f700, 0x1f773), (0xe0001, 0xe0001), (0xe0020, 0xe007f),
  (0xe0100, 0xe01ef)]

/-- Combining marks that continue a token and leave no trace in it. -/
def markCodes : List Nat := [
  0x300, 0x301, 0x302, 0x303, 0x304, 0x306, 0x307, 0x308, 0x309, 0x30a, 0x30b, 0x30c, 0x30f,
  0x311, 0x31b, 0x323, 0x324, 0x325, 0x326, 0x327, 0x328, 0x32d, 0x32e, 0x330, 0x331]

/-- Characters that are folded by a fixed distance, run by run. -/
def foldRuns : List ShiftRun := [
  ⟨0x41, 0x5a, 1, 32⟩, ⟨0xb5, 0xb5, 1, 775⟩, ⟨0xc6, 0xc6, 1, 32⟩, ⟨0xc7, 0xc9, 2, -100⟩,
  ⟨0xc8, 0xc8, 1, -99⟩, ⟨0xd0, 0xd0, 1, 32⟩, ⟨0xd1, 0xd2, 1, -99⟩, ⟨0xd8, 0xd8, 1, 32⟩,
  ⟨0xdd, 0xdd, 1, -100⟩, ⟨0xde, 0xde, 1, 32⟩, ⟨0xe7, 0xe9, 2, -132⟩, ⟨0xe8, 0xe8, 1, -131⟩,
  ⟨0xf1, 0xf2, 1, -131⟩, ⟨0xfd, 0xfd, 1, -132⟩, ⟨0xff, 0xff, 1, -134⟩, ⟨0x110, 0x110, 1, 1⟩,
  ⟨0x126, 0x126, 1, 1⟩, ⟨0x132, 0x132, 1, 1⟩, ⟨0x13f, 0x141, 2, 1⟩, ⟨0x14a, 0x14a, 1, 1⟩,
  ⟨0x152, 0x152, 1, 1⟩, ⟨0x166, 0x166, 1, 1⟩, ⟨0x174, 0x176, 2, -253⟩, ⟨0x175, 0x177, 2, -254⟩,
  ⟨0x178, 0x179, 1, -255⟩, ⟨0x17f, 0x17f, 1, -268⟩, ⟨0x181, 0x181, 1, 210⟩, ⟨0x182, 0x184, 2, 1⟩,
  ⟨0x186, 0x186, 1, 206⟩, ⟨0x187, 0x187, 1, 1⟩, ⟨0x189, 0x18a, 1, 205⟩, ⟨0x18b, 0x18b, 1, 1⟩,
  ⟨0x18e, 0x18e, 1, 79⟩, ⟨0x18f, 0x18f, 1, 202⟩, ⟨0x190, 0x190, 1, 203⟩, ⟨0x191, 0x191, 1, 1⟩,
  ⟨0x193, 0x193, 1, 205⟩, ⟨0x194, 0x194, 1, 207⟩, ⟨0x196, 0x196, 1, 211⟩, ⟨0x197, 0x197, 1, 209⟩,
  ⟨0x198, 0x198, 1, 1⟩, ⟨0x19c, 0x19c, 1, 211⟩, ⟨0x19d, 0x19d, 1, 213⟩, ⟨0x19f, 0x19f, 1, 214⟩,
  ⟨0x1a2, 0x1a4, 2, 1⟩, ⟨0x1a6, 0x1a6, 1, 218⟩, ⟨0x1a7, 0x1a7, 1, 1⟩, ⟨0x1a9, 0x1a9, 1, 218⟩,
  ⟨0x1ac, 0x1ac, 1, 1⟩, ⟨0x1ae, 0x1ae, 1, 218⟩, ⟨0x1b1, 0x1b2, 1, 217⟩, ⟨0x1b3, 0x1b5, 2, 1⟩,
  ⟨0x1b7, 0x1b7, 1, 219⟩, ⟨0x1b8, 0x1b8, 1, 1⟩, ⟨0x1bc, 0x1bc, 1, 1⟩, ⟨0x1d5, 0x1db, 2, 1⟩,
  ⟨0x1de, 0x1e4, 2, 1⟩, ⟨0x1ec, 0x1ee, 2, 1⟩, ⟨0x1f0, 0x1f0, 1, -390⟩, ⟨0x1f6, 0x1f6, 1, -97⟩,
  ⟨0x1f7, 0x1f7, 1, -56⟩, ⟨0x1fa, 0x1fe, 2, 1⟩, ⟨0x21c, 0x21c, 1, 1⟩, ⟨0x220, 0x220, 1, -130⟩,
  ⟨0x222, 0x224, 2, 1⟩, ⟨0x22a, 0x22c, 2, 1⟩, ⟨0x230, 0x230, 1, 1⟩, ⟨0x23a, 0x23a, 1, 10795⟩,
  ⟨0x23b, 0x23b, 1, 1⟩, ⟨0x23d, 0x23d, 1, -163⟩, ⟨0x23e, 0x23e, 1, 10792⟩, ⟨0x241, 0x241, 1, 1⟩,
  ⟨0x243, 0x243, 1, -195⟩, ⟨0x244, 0x244, 1, 69⟩, ⟨0x245, 0x245, 1, 71⟩, ⟨0x246, 0x24e, 2, 1⟩,
  ⟨0x370, 0x372, 2, 1⟩, ⟨0x376, 0x376, 1, 1⟩, ⟨0x386, 0x386, 1, 38⟩, ⟨0x388, 0x38a, 1, 37⟩,
  ⟨0x38c, 0x38c, 1, 64⟩, ⟨0x38e, 0x38f, 1, 63⟩, ⟨0x391, 0x3a1, 1, 32⟩, ⟨0x3a3, 0x3ab, 1, 32⟩,
  ⟨0x3c2, 0x3c2, 1, 1⟩, ⟨0x3cf, 0x3cf, 1, 8⟩, ⟨0x3d0, 0x3d0, 1, -30⟩, ⟨0x3d1, 0x3d1, 1, -25⟩,
  ⟨0x3d5, 0x3d5, 1, -15⟩, ⟨0x3d6, 0x3d6, 1, -22⟩, ⟨0x3d8, 0x3ee, 2, 1⟩, ⟨0x3f0, 0x3f0, 1, -54⟩,
  ⟨0x3f1, 0x3f1, 1, -48⟩, ⟨0x3f4, 0x3f4, 1, -60⟩, ⟨0x3f5, 0x3f5, 1, -64⟩, ⟨0x3f7, 0x3f7, 1, 1⟩,
  ⟨0x3f9, 0x3f9, 1, -7⟩, ⟨0x3fa, 0x3fa, 1, 1⟩, ⟨0x3fd, 0x3ff, 1, -130⟩, ⟨0x400, 0x40f, 1, 80⟩,
  ⟨0x410, 0x42f, 1, 32⟩, ⟨0x460, 0x480, 2, 1⟩, ⟨0x48a, 0x4be, 2, 1⟩, ⟨0x4c0, 0x4c0, 1, 15⟩,
  ⟨0x4c1, 0x4cd, 2, 1⟩, ⟨0x4d0, 0x526, 2, 1⟩, ⟨0x531, 0x556, 1, 48⟩, ⟨0x10a0, 0x10c5, 1, 7264⟩,
  ⟨0x10c7, 0x10c7, 1, 7264⟩, ⟨0x10cd, 0x10cd, 1, 7264⟩, ⟨0x1e08, 0x1e08, 1, 1⟩,
  ⟨0x1e14, 0x1e16, 2, 1⟩, ⟨0x1e1c, 0x1e1c, 1, 1⟩, ⟨0x1e2e, 0x1e2e, 1, 1⟩, ⟨0x1e38, 0x1e38, 1, 1⟩,
  ⟨0x1e4c, 0x1e52, 2, 1⟩, ⟨0x1e5c, 0x1e5c, 1, 1⟩, ⟨0x1e64, 0x1e68, 2, 1⟩, ⟨0x1e78, 0x1e7a, 2, 1⟩,
  ⟨0x1e96, 0x1e96, 1, -7726⟩, ⟨0x1e97, 0x1e97, 1, -7715⟩, ⟨0x1e98, 0x1e98, 1, -7713⟩,
  ⟨0x1e99, 0x1e99, 1, -7712⟩, ⟨0x1e9b, 0x1e9b, 1, -7720⟩, ⟨0x1e9e, 0x1e9e, 1, -7615⟩,
  ⟨0x1ea4, 0x1eb6, 2, 1⟩, ⟨0x1ebe, 0x1ec6, 2, 1⟩, ⟨0x1ed0, 0x1ee2, 2, 1⟩, ⟨0x1ee8, 0x1ef0, 2, 1⟩,
  ⟨0x1efa, 0x1efe, 2, 1⟩, ⟨0x1f08, 0x1f0f, 1, -8⟩, ⟨0x1f18, 0x1f1d, 1, -8⟩,
  ⟨0x1f28, 0x1f2f, 1, -8⟩, ⟨0x1f38, 0x1f3f, 1, -8⟩, ⟨0x1f48, 0x1f4d, 1, -8⟩,
  ⟨0x1f59, 0x1f5f, 2, -8⟩, ⟨0x1f68, 0x1f6f, 1, -8⟩, ⟨0x1f88, 0x1f8f, 1, -8⟩,
  ⟨0x1f98, 0x1f9f, 1, -8⟩, ⟨0x1fa8, 0x1faf, 1, -8⟩, ⟨0x1fb8, 0x1fb9, 1, -8⟩,
  ⟨0x1fba, 0x1fbb, 1, -74⟩, ⟨0x1fbc, 0x1fbc, 1, -9⟩, ⟨0x1fbe, 0x1fbe, 1, -7173⟩,
  ⟨0x1fc8, 0x1fcb, 1, -86⟩, ⟨0x1fcc, 0x1fcc, 1, -9⟩, ⟨0x1fd8, 0x1fd9, 1, -8⟩,
  ⟨0x1fda, 0x1fdb, 1, -100⟩, ⟨0x1fe8, 0x1fe9, 1, -8⟩, ⟨0x1fea, 0x1feb, 1, -112⟩,
  ⟨0x1fec, 0x1fec, 1, -7⟩, ⟨0x1ff8, 0x1ff9, 1, -128⟩, ⟨0x1ffa, 0x1ffb, 1, -126⟩,
  ⟨0x1ffc, 0x1ffc, 1, -9⟩, ⟨0x2126, 0x2126, 1, -7517⟩, ⟨0x212a, 0x212a, 1, -8383⟩,
  ⟨0x212b, 0x212b, 1, -8394⟩, ⟨0x2132, 0x2132, 1, 28⟩, ⟨0x2160, 0x216f, 1, 16⟩,
  ⟨0x2183, 0x2183, 1, 1⟩, ⟨0x2c00, 0x2c2e, 1, 48⟩, ⟨0x2c60, 0x2c60, 1, 1⟩,
  ⟨0x2c62, 0x2c62, 1, -10743⟩, ⟨0x2c63, 0x2c63, 1, -3814⟩, ⟨0x2c64, 0x2c64, 1, -10727⟩,
  ⟨0x2c67, 0x2c6b, 2, 1⟩, ⟨0x2c6d, 0x2c6d, 1, -10780⟩, ⟨0x2c6e, 0x2c6e, 1, -10749⟩,
  ⟨0x2c6f, 0x2c6f, 1, -10783⟩, ⟨0x2c70, 0x2c70, 1, -10782⟩, ⟨0x2c72, 0x2c72, 1, 1⟩,
  ⟨0x2c75, 0x2c75, 1, 1⟩, ⟨0x2c7e, 0x2c7f, 1, -10815⟩, ⟨0x2c80, 0x2ce2, 2, 1⟩,
  ⟨0x2ceb, 0x2ced, 2, 1⟩, ⟨0x2cf2, 0x2cf2, 1, 1⟩, ⟨0xa640, 0xa66c, 2, 1⟩, ⟨0xa680, 0xa696, 2, 1⟩,
  ⟨0xa722, 0xa72e, 2, 1⟩, ⟨0xa732, 0xa76e, 2, 1⟩, ⟨0xa779, 0xa77b, 2, 1⟩,
  ⟨0xa77d, 0xa77d, 1, -35332⟩, ⟨0xa77e, 0xa786, 2, 1⟩, ⟨0xa78b, 0xa78b, 1, 1⟩,
  ⟨0xa78d, 0xa78d, 1, -42280⟩, ⟨0xa790, 0xa792, 2, 1⟩, ⟨0xa7a0, 0xa7a8, 2, 1⟩,
  ⟨0xa7aa, 0xa7aa, 1, -42308⟩, ⟨0xff21, 0xff3a, 1, 32⟩, ⟨0x10400, 0x10427, 1, 40⟩]

/-- Ranges whose characters are all folded to one letter: first and last code point, letter. -/
def plainRuns : List (Nat × Nat × Nat) := [
  (0xc0, 0xc5, 0x61), (0xca, 0xcb, 0x65), (0xcc, 0xcf, 0x69), (0xd3, 0xd6, 0x6f),
  (0xd9, 0xdc, 0x75), (0xe0, 0xe5, 0x61), (0xea, 0xeb, 0x65), (0xec, 0xef, 0x69),
  (0xf3, 0xf6, 0x6f), (0xf9, 0xfc, 0x75), (0x100, 0x105, 0x61), (0x106, 0x10d, 0x63),
  (0x10e, 0x10f, 0x64), (0x112, 0x11b, 0x65), (0x11c, 0x123, 0x67), (0x124, 0x125, 0x68),
  (0x128, 0x130, 0x69), (0x134, 0x135, 0x6a), (0x136, 0x137, 0x6b), (0x139, 0x13e, 0x6c),
  (0x143, 0x148, 0x6e), (0x14c, 0x151, 0x6f), (0x154, 0x159, 0x72), (0x15a, 0x161, 0x73),
  (0x162, 0x165, 0x74), (0x168, 0x173, 0x75), (0x17a, 0x17e, 0x7a), (0x1a0, 0x1a1, 0x6f),
  (0x1af, 0x1b0, 0x75), (0x1c4, 0x1c5, 0x1c6), (0x1c7, 0x1c8, 0x1c9), (0x1ca, 0x1cb, 0x1cc),
  (0x1cd, 0x1ce, 0x61), (0x1cf, 0x1d0, 0x69), (0x1d1, 0x1d2, 0x6f), (0x1d3, 0x1d4, 0x75),
  (0x1e6, 0x1e7, 0x67), (0x1e8, 0x1e9, 0x6b), (0x1ea, 0x1eb, 0x6f), (0x1f1, 0x1f2, 0x1f3),
  (0x1f4, 0x1f5, 0x67), (0x1f8, 0x1f9, 0x6e), (0x200, 0x203, 0x61), (0x204, 0x207, 0x65),
  (0x208, 0x20b, 0x69), (0x20c, 0x20f, 0x6f), (0x210, 0x213, 0x72), (0x214, 0x217, 0x75),
  (0x218, 0x219, 0x73), (0x21a, 0x21b, 0x74), (0x21e, 0x21f, 0x68), (0x226, 0x227, 0x61),
  (0x228, 0x229, 0x65), (0x22e, 0x22f, 0x6f), (0x232, 0x233, 0x79), (0x1e00, 0x1e01, 0x61),
  (0x1e02, 0x1e07, 0x62), (0x1e0a, 0x1e13, 0x64), (0x1e18, 0x1e1b, 0x65), (0x1e1e, 0x1e1f, 0x66),
  (0x1e20, 0x1e21, 0x67), (0x1e22, 0x1e2b, 0x68), (0x1e2c, 0x1e2d, 0x69), (0x1e30, 0x1e35, 0x6b),
  (0x1e36, 0x1e37, 0x6c), (0x1e3a, 0x1e3d, 0x6c), (0x1e3e, 0x1e43, 0x6d), (0x1e44, 0x1e4b, 0x6e),
  (0x1e54, 0x1e57, 0x70), (0x1e58, 0x1e5b, 0x72), (0x1e5e, 0x1e5f, 0x72), (0x1e60, 0x1e63, 0x73),
  (0x1e6a, 0x1e71, 0x74), (0x1e72, 0x1e77, 0x75), (0x1e7c, 0x1e7f, 0x76), (0x1e80, 0x1e89, 0x77),
  (0x1e8a, 0x1e8d, 0x78), (0x1e8e, 0x1e8f, 0x79), (0x1e90, 0x1e95, 0x7a), (0x1ea0, 0x1ea3, 0x61),
  (0x1eb8, 0x1ebd, 0x65), (0x1ec8, 0x1ecb, 0x69), (0x1ecc, 0x1ecf, 0x6f), (0x1ee4, 0x1ee7, 0x75),
  (0x1ef2, 0x1ef9, 0x79)]

end Outline.Text.Token
