import WireShapes.Text.Run

/-!
# Letters and digits

The Unicode classes that word splitting looks at: alphanumeric characters (Alphabetic, or of a
numeric category), characters with the Uppercase property and characters with the Lowercase
property.  Case mapping is kept to what identifiers can show: the ASCII characters of a full
mapping, which for all but a few letters outside ASCII are none.
-/

namespace WireShapes.Text

/-- Alphabetic characters and characters of the categories Nd, Nl and No. -/
def alphanumericRuns : List Run := Run.table [
  0x0030, 0x0039, 1, 0x0041, 0x005a, 1, 0x0061, 0x007a, 1, 0x00aa, 0x00aa, 1, 0x00b2, 0x00b3, 1,
  0x00b5, 0x00b5, 1, 0x00b9, 0x00ba, 1, 0x00bc, 0x00be, 1, 0x00c0, 0x00d6, 1, 0x00d8, 0x00f6, 1,
  0x00f8, 0x02c1, 1, 0x02c6, 0x02d1, 1, 0x02e0, 0x02e4, 1, 0x02ec, 0x02ee, 2, 0x0345, 0x0345, 1,
  0x0363, 0x0374, 1, 0x0376, 0x0377, 1, 0x037a, 0x037d, 1, 0x037f, 0x037f, 1, 0x0386, 0x0386, 1,
  0x0388, 0x038a, 1, 0x038c, 0x038c, 1, 0x038e, 0x03a1, 1, 0x03a3, 0x03f5, 1, 0x03f7, 0x0481, 1,
  0x048a, 0x052f, 1, 0x0531, 0x0556, 1, 0x0559, 0x0559, 1, 0x0560, 0x0588, 1, 0x05b0, 0x05bd, 1,
  0x05bf, 0x05bf, 1, 0x05c1, 0x05c2, 1, 0x05c4, 0x05c5, 1, 0x05c7, 0x05c7, 1, 0x05d0, 0x05ea, 1,
  0x05ef, 0x05f2, 1, 0x0610, 0x061a, 1, 0x0620, 0x0657, 1, 0x0659, 0x0669, 1, 0x066e, 0x06d3, 1,
  0x06d5, 0x06dc, 1, 0x06e1, 0x06e8, 1, 0x06ed, 0x06fc, 1, 0x06ff, 0x06ff, 1, 0x0710, 0x073f, 1,
  0x074d, 0x07b1, 1, 0x07c0, 0x07ea, 1, 0x07f4, 0x07f5, 1, 0x07fa, 0x07fa, 1, 0x0800, 0x0817, 1,
  0x081a, 0x082c, 1, 0x0840, 0x0858, 1, 0x0860, 0x086a, 1, 0x0870, 0x0887, 1, 0x0889, 0x088f, 1,
  0x0897, 0x0897, 1, 0x08a0, 0x08c9, 1, 0x08d4, 0x08df, 1, 0x08e3, 0x08e9, 1, 0x08f0, 0x093b, 1,
  0x093d, 0x094c, 1, 0x094e, 0x0950, 1, 0x0955, 0x0963, 1, 0x0966, 0x096f, 1, 0x0971, 0x0983, 1,
  0x0985, 0x098c, 1, 0x098f, 0x0990, 1, 0x0993, 0x09a8, 1, 0x09aa, 0x09b0, 1, 0x09b2, 0x09b2, 1,
  0x09b6, 0x09b9, 1, 0x09bd, 0x09c4, 1, 0x09c7, 0x09c8, 1, 0x09cb, 0x09cc, 1, 0x09ce, 0x09ce, 1,
  0x09d7, 0x09d7, 1, 0x09dc, 0x09dd, 1, 0x09df, 0x09e3, 1, 0x09e6, 0x09f1, 1, 0x09f4, 0x09f9, 1,
  0x09fc, 0x09fc, 1, 0x0a01, 0x0a03, 1, 0x0a05, 0x0a0a, 1, 0x0a0f, 0x0a10, 1, 0x0a13, 0x0a28, 1,
  0x0a2a, 0x0a30, 1, 0x0a32, 0x0a33, 1, 0x0a35, 0x0a36, 1, 0x0a38, 0x0a39, 1, 0x0a3e, 0x0a42, 1,
  0x0a47, 0x0a48, 1, 0x0a4b, 0x0a4c, 1, 0x0a51, 0x0a51, 1, 0x0a59, 0x0a5c, 1, 0x0a5e, 0x0a5e, 1,
  0x0a66, 0x0a75, 1, 0x0a81, 0x0a83, 1, 0x0a85, 0x0a8d, 1, 0x0a8f, 0x0a91, 1, 0x0a93, 0x0aa8, 1,
  0x0aaa, 0x0ab0, 1, 0x0ab2, 0x0ab3, 1, 0x0ab5, 0x0ab9, 1, 0x0abd, 0x0ac5, 1, 0x0ac7, 0x0ac9, 1,
  0x0acb, 0x0acc, 1, 0x0ad0, 0x0ad0, 1, 0x0ae0, 0x0ae3, 1, 0x0ae6, 0x0aef, 1, 0x0af9, 0x0afc, 1,
  0x0b01, 0x0b03, 1, 0x0b05, 0x0b0c, 1, 0x0b0f, 0x0b10, 1, 0x0b13, 0x0b28, 1, 0x0b2a, 0x0b30, 1,
  0x0b32, 0x0b33, 1, 0x0b35, 0x0b39, 1, 0x0b3d, 0x0b44, 1, 0x0b47, 0x0b48, 1, 0x0b4b, 0x0b4c, 1,
  0x0b56, 0x0b57, 1, 0x0b5c, 0x0b5d, 1, 0x0b5f, 0x0b63, 1, 0x0b66, 0x0b6f, 1, 0x0b71, 0x0b77, 1,
  0x0b82, 0x0b83, 1, 0x0b85, 0x0b8a, 1, 0x0b8e, 0x0b90, 1, 0x0b92, 0x0b95, 1, 0x0b99, 0x0b9a, 1,
  0x0b9c, 0x0b9c, 1, 0x0b9e, 0x0b9f, 1, 0x0ba3, 0x0ba4, 1, 0x0ba8, 0x0baa, 1, 0x0bae, 0x0bb9, 1,
  0x0bbe, 0x0bc2, 1, 0x0bc6, 0x0bc8, 1, 0x0bca, 0x0bcc, 1, 0x0bd0, 0x0bd0, 1, 0x0bd7, 0x0bd7, 1,
  0x0be6, 0x0bf2, 1, 0x0c00, 0x0c0c, 1, 0x0c0e, 0x0c10, 1, 0x0c12, 0x0c28, 1, 0x0c2a, 0x0c39, 1,
  0x0c3d, 0x0c44, 1, 0x0c46, 0x0c48, 1, 0x0c4a, 0x0c4c, 1, 0x0c55, 0x0c56, 1, 0x0c58, 0x0c5a, 1,
  0x0c5c, 0x0c5d, 1, 0x0c60, 0x0c63, 1, 0x0c66, 0x0c6f, 1, 0x0c78, 0x0c7e, 1, 0x0c80, 0x0c83, 1,
  0x0c85, 0x0c8c, 1, 0x0c8e, 0x0c90, 1, 0x0c92, 0x0ca8, 1, 0x0caa, 0x0cb3, 1, 0x0cb5, 0x0cb9, 1,
  0x0cbd, 0x0cc4, 1, 0x0cc6, 0x0cc8, 1, 0x0cca, 0x0ccc, 1, 0x0cd5, 0x0cd6, 1, 0x0cdc, 0x0cde, 1,
  0x0ce0, 0x0ce3, 1, 0x0ce6, 0x0cef, 1, 0x0cf1, 0x0cf3, 1, 0x0d00, 0x0d0c, 1, 0x0d0e, 0x0d10, 1,
  0x0d12, 0x0d3a, 1, 0x0d3d, 0x0d44, 1, 0x0d46, 0x0d48, 1, 0x0d4a, 0x0d4c, 1, 0x0d4e, 0x0d4e, 1,
  0x0d54, 0x0d63, 1, 0x0d66, 0x0d78, 1, 0x0d7a, 0x0d7f, 1, 0x0d81, 0x0d83, 1, 0x0d85, 0x0d96, 1,
  0x0d9a, 0x0db1, 1, 0x0db3, 0x0dbb, 1, 0x0dbd, 0x0dbd, 1, 0x0dc0, 0x0dc6, 1, 0x0dcf, 0x0dd4, 1,
  0x0dd6, 0x0dd6, 1, 0x0dd8, 0x0ddf, 1, 0x0de6, 0x0def, 1, 0x0df2, 0x0df3, 1, 0x0e01, 0x0e3a, 1,
  0x0e40, 0x0e46, 1, 0x0e4d, 0x0e4d, 1, 0x0e50, 0x0e59, 1, 0x0e81, 0x0e82, 1, 0x0e84, 0x0e84, 1,
  0x0e86, 0x0e8a, 1, 0x0e8c, 0x0ea3, 1, 0x0ea5, 0x0ea5, 1, 0x0ea7, 0x0eb9, 1, 0x0ebb, 0x0ebd, 1,
  0x0ec0, 0x0ec4, 1, 0x0ec6, 0x0ec6, 1, 0x0ecd, 0x0ecd, 1, 0x0ed0, 0x0ed9, 1, 0x0edc, 0x0edf, 1,
  0x0f00, 0x0f00, 1, 0x0f20, 0x0f33, 1, 0x0f40, 0x0f47, 1, 0x0f49, 0x0f6c, 1, 0x0f71, 0x0f83, 1,
  0x0f88, 0x0f97, 1, 0x0f99, 0x0fbc, 1, 0x1000, 0x1036, 1, 0x1038, 0x1038, 1, 0x103b, 0x1049, 1,
  0x1050, 0x109d, 1, 0x10a0, 0x10c5, 1, 0x10c7, 0x10c7, 1, 0x10cd, 0x10cd, 1, 0x10d0, 0x10fa, 1,
  0x10fc, 0x1248, 1, 0x124a, 0x124d, 1, 0x1250, 0x1256, 1, 0x1258, 0x1258, 1, 0x125a, 0x125d, 1,
  0x1260, 0x1288, 1, 0x128a, 0x128d, 1, 0x1290, 0x12b0, 1, 0x12b2, 0x12b5, 1, 0x12b8, 0x12be, 1,
  0x12c0, 0x12c0, 1, 0x12c2, 0x12c5, 1, 0x12c8, 0x12d6, 1, 0x12d8, 0x1310, 1, 0x1312, 0x1315, 1,
  0x1318, 0x135a, 1, 0x1369, 0x137c, 1, 0x1380, 0x138f, 1, 0x13a0, 0x13f5, 1, 0x13f8, 0x13fd, 1,
  0x1401, 0x166c, 1, 0x166f, 0x167f, 1, 0x1681, 0x169a, 1, 0x16a0, 0x16ea, 1, 0x16ee, 0x16f8, 1,
  0x1700, 0x1713, 1, 0x171f, 0x1733, 1, 0x1740, 0x1753, 1, 0x1760, 0x176c, 1, 0x176e, 0x1770, 1,
  0x1772, 0x1773, 1, 0x1780, 0x17b3, 1, 0x17b6, 0x17c8, 1, 0x17d7, 0x17d7, 1, 0x17dc, 0x17dc, 1,
  0x17e0, 0x17e9, 1, 0x17f0, 0x17f9, 1, 0x1810, 0x1819, 1, 0x1820, 0x1878, 1, 0x1880, 0x18aa, 1,
  0x18b0, 0x18f5, 1, 0x1900, 0x191e, 1, 0x1920, 0x192b, 1, 0x1930, 0x1938, 1, 0x1946, 0x196d, 1,
  0x1970, 0x1974, 1, 0x1980, 0x19ab, 1, 0x19b0, 0x19c9, 1, 0x19d0, 0x19da, 1, 0x1a00, 0x1a1b, 1,
  0x1a20, 0x1a5e, 1, 0x1a61, 0x1a74, 1, 0x1a80, 0x1a89, 1, 0x1a90, 0x1a99, 1, 0x1aa7, 0x1aa7, 1,
  0x1abf, 0x1ac0, 1, 0x1acc, 0x1ace, 1, 0x1b00, 0x1b33, 1, 0x1b35, 0x1b43, 1, 0x1b45, 0x1b4c, 1,
  0x1b50, 0x1b59, 1, 0x1b80, 0x1ba9, 1, 0x1bac, 0x1be5, 1, 0x1be7, 0x1bf1, 1, 0x1c00, 0x1c36, 1,
  0x1c40, 0x1c49, 1, 0x1c4d, 0x1c7d, 1, 0x1c80, 0x1c8a, 1, 0x1c90, 0x1cba, 1, 0x1cbd, 0x1cbf, 1,
  0x1ce9, 0x1cec, 1, 0x1cee, 0x1cf3, 1, 0x1cf5, 0x1cf6, 1, 0x1cfa, 0x1cfa, 1, 0x1d00, 0x1dbf, 1,
  0x1dd3, 0x1df4, 1, 0x1e00, 0x1f15, 1, 0x1f18, 0x1f1d, 1, 0x1f20, 0x1f45, 1, 0x1f48, 0x1f4d, 1,
  0x1f50, 0x1f57, 1, 0x1f59, 0x1f5d, 2, 0x1f5f, 0x1f7d, 1, 0x1f80, 0x1fb4, 1, 0x1fb6, 0x1fbc, 1,
  0x1fbe, 0x1fbe, 1, 0x1fc2, 0x1fc4, 1, 0x1fc6, 0x1fcc, 1, 0x1fd0, 0x1fd3, 1, 0x1fd6, 0x1fdb, 1,
  0x1fe0, 0x1fec, 1, 0x1ff2, 0x1ff4, 1, 0x1ff6, 0x1ffc, 1, 0x2070, 0x2071, 1, 0x2074, 0x2079, 1,
  0x207f, 0x2089, 1, 0x2090, 0x209c, 1, 0x2102, 0x2102, 1, 0x2107, 0x2107, 1, 0x210a, 0x2113, 1,
  0x2115, 0x2115, 1, 0x2119, 0x211d, 1, 0x2124, 0x2128, 2, 0x212a, 0x212d, 1, 0x212f, 0x2139, 1,
  0x213c, 0x213f, 1, 0x2145, 0x2149, 1, 0x214e, 0x214e, 1, 0x2150, 0x2189, 1, 0x2460, 0x249b, 1,
  0x24b6, 0x24ff, 1, 0x2776, 0x2793, 1, 0x2c00, 0x2ce4, 1, 0x2ceb, 0x2cee, 1, 0x2cf2, 0x2cf3, 1,
  0x2cfd, 0x2cfd, 1, 0x2d00, 0x2d25, 1, 0x2d27, 0x2d27, 1, 0x2d2d, 0x2d2d, 1, 0x2d30, 0x2d67, 1,
  0x2d6f, 0x2d6f, 1, 0x2d80, 0x2d96, 1, 0x2da0, 0x2da6, 1, 0x2da8, 0x2dae, 1, 0x2db0, 0x2db6, 1,
  0x2db8, 0x2dbe, 1, 0x2dc0, 0x2dc6, 1, 0x2dc8, 0x2dce, 1, 0x2dd0, 0x2dd6, 1, 0x2dd8, 0x2dde, 1,
  0x2de0, 0x2dff, 1, 0x2e2f, 0x2e2f, 1, 0x3005, 0x3007, 1, 0x3021, 0x3029, 1, 0x3031, 0x3035, 1,
  0x3038, 0x303c, 1, 0x3041, 0x3096, 1, 0x309d, 0x309f, 1, 0x30a1, 0x30fa, 1, 0x30fc, 0x30ff, 1,
  0x3105, 0x312f, 1, 0x3131, 0x318e, 1, 0x3192, 0x3195, 1, 0x31a0, 0x31bf, 1, 0x31f0, 0x31ff, 1,
  0x3220, 0x3229, 1, 0x3248, 0x324f, 1, 0x3251, 0x325f, 1, 0x3280, 0x3289, 1, 0x32b1, 0x32bf, 1,
  0x3400, 0x4dbf, 1, 0x4e00, 0xa48c, 1, 0xa4d0, 0xa4fd, 1, 0xa500, 0xa60c, 1, 0xa610, 0xa62b, 1,
  0xa640, 0xa66e, 1, 0xa674, 0xa67b, 1, 0xa67f, 0xa6ef, 1, 0xa717, 0xa71f, 1, 0xa722, 0xa788, 1,
  0xa78b, 0xa7dc, 1, 0xa7f1, 0xa805, 1, 0xa807, 0xa827, 1, 0xa830, 0xa835, 1, 0xa840, 0xa873, 1,
  0xa880, 0xa8c3, 1, 0xa8c5, 0xa8c5, 1, 0xa8d0, 0xa8d9, 1, 0xa8f2, 0xa8f7, 1, 0xa8fb, 0xa8fb, 1,
  0xa8fd, 0xa92a, 1, 0xa930, 0xa952, 1, 0xa960, 0xa97c, 1, 0xa980, 0xa9b2, 1, 0xa9b4, 0xa9bf, 1,
  0xa9cf, 0xa9d9, 1, 0xa9e0, 0xa9fe, 1, 0xaa00, 0xaa36, 1, 0xaa40, 0xaa4d, 1, 0xaa50, 0xaa59, 1,
  0xaa60, 0xaa76, 1, 0xaa7a, 0xaabe, 1, 0xaac0, 0xaac2, 2, 0xaadb, 0xaadd, 1, 0xaae0, 0xaaef, 1,
  0xaaf2, 0xaaf5, 1, 0xab01, 0xab06, 1, 0xab09, 0xab0e, 1, 0xab11, 0xab16, 1, 0xab20, 0xab26, 1,
  0xab28, 0xab2e, 1, 0xab30, 0xab5a, 1, 0xab5c, 0xab69, 1, 0xab70, 0xabea, 1, 0xabf0, 0xabf9, 1,
  0xac00, 0xd7a3, 1, 0xd7b0, 0xd7c6, 1, 0xd7cb, 0xd7fb, 1, 0xf900, 0xfa6d, 1, 0xfa70, 0xfad9, 1,
  0xfb00, 0xfb06, 1, 0xfb13, 0xfb17, 1, 0xfb1d, 0xfb28, 1, 0xfb2a, 0xfb36, 1, 0xfb38, 0xfb3c, 1,
  0xfb3e, 0xfb3e, 1, 0xfb40, 0xfb41, 1, 0xfb43, 0xfb44, 1, 0xfb46, 0xfbb1, 1, 0xfbd3, 0xfd3d, 1,
  0xfd50, 0xfd8f, 1, 0xfd92, 0xfdc7, 1, 0xfdf0, 0xfdfb, 1, 0xfe70, 0xfe74, 1, 0xfe76, 0xfefc, 1,
  0xff10, 0xff19, 1, 0xff21, 0xff3a, 1, 0xff41, 0xff5a, 1, 0xff66, 0xffbe, 1, 0xffc2, 0xffc7, 1,
  0xffca, 0xffcf, 1, 0xffd2, 0xffd7, 1, 0xffda, 0xffdc, 1, 0x10000, 0x1000b, 1,
  0x1000d, 0x10026, 1, 0x10028, 0x1003a, 1, 0x1003c, 0x1003d, 1, 0x1003f, 0x1004d, 1,
  0x10050, 0x1005d, 1, 0x10080, 0x100fa, 1, 0x10107, 0x10133, 1, 0x10140, 0x10178, 1,
  0x1018a, 0x1018b, 1, 0x10280, 0x1029c, 1, 0x102a0, 0x102d0, 1, 0x102e1, 0x102fb, 1,
  0x10300, 0x10323, 1, 0x1032d, 0x1034a, 1, 0x10350, 0x1037a, 1, 0x10380, 0x1039d, 1,
  0x103a0, 0x103c3, 1, 0x103c8, 0x103cf, 1, 0x103d1, 0x103d5, 1, 0x10400, 0x1049d, 1,
  0x104a0, 0x104a9, 1, 0x104b0, 0x104d3, 1, 0x104d8, 0x104fb, 1, 0x10500, 0x10527, 1,
  0x10530, 0x10563, 1, 0x10570, 0x1057a, 1, 0x1057c, 0x1058a, 1, 0x1058c, 0x10592, 1,
  0x10594, 0x10595, 1, 0x10597, 0x105a1, 1, 0x105a3, 0x105b1, 1, 0x105b3, 0x105b9, 1,
  0x105bb, 0x105bc, 1, 0x105c0, 0x105f3, 1, 0x10600, 0x10736, 1, 0x10740, 0x10755, 1,
  0x10760, 0x10767, 1, 0x10780, 0x10785, 1, 0x10787, 0x107b0, 1, 0x107b2, 0x107ba, 1,
  0x10800, 0x10805, 1, 0x10808, 0x10808, 1, 0x1080a, 0x10835, 1, 0x10837, 0x10838, 1,
  0x1083c, 0x1083c, 1, 0x1083f, 0x10855, 1, 0x10858, 0x10876, 1, 0x10879, 0x1089e, 1,
  0x108a7, 0x108af, 1, 0x108e0, 0x108f2, 1, 0x108f4, 0x108f5, 1, 0x108fb, 0x1091b, 1,
  0x10920, 0x10939, 1, 0x10940, 0x10959, 1, 0x10980, 0x109b7, 1, 0x109bc, 0x109cf, 1,
  0x109d2, 0x10a03, 1, 0x10a05, 0x10a06, 1, 0x10a0c, 0x10a13, 1, 0x10a15, 0x10a17, 1,
  0x10a19, 0x10a35, 1, 0x10a40, 0x10a48, 1, 0x10a60, 0x10a7e, 1, 0x10a80, 0x10a9f, 1,
  0x10ac0, 0x10ac7, 1, 0x10ac9, 0x10ae4, 1, 0x10aeb, 0x10aef, 1, 0x10b00, 0x10b35, 1,
  0x10b40, 0x10b55, 1, 0x10b58, 0x10b72, 1, 0x10b78, 0x10b91, 1, 0x10ba9, 0x10baf, 1,
  0x10c00, 0x10c48, 1, 0x10c80, 0x10cb2, 1, 0x10cc0, 0x10cf2, 1, 0x10cfa, 0x10d27, 1,
  0x10d30, 0x10d39, 1, 0x10d40, 0x10d65, 1, 0x10d69, 0x10d69, 1, 0x10d6f, 0x10d85, 1,
  0x10e60, 0x10e7e, 1, 0x10e80, 0x10ea9, 1, 0x10eab, 0x10eac, 1, 0x10eb0, 0x10eb1, 1,
  0x10ec2, 0x10ec7, 1, 0x10efa, 0x10efc, 1, 0x10f00, 0x10f27, 1, 0x10f30, 0x10f45, 1,
  0x10f51, 0x10f54, 1, 0x10f70, 0x10f81, 1, 0x10fb0, 0x10fcb, 1, 0x10fe0, 0x10ff6, 1,
  0x11000, 0x11045, 1, 0x11052, 0x1106f, 1, 0x11071, 0x11075, 1, 0x11080, 0x110b8, 1,
  0x110c2, 0x110c2, 1, 0x110d0, 0x110e8, 1, 0x110f0, 0x110f9, 1, 0x11100, 0x11132, 1,
  0x11136, 0x1113f, 1, 0x11144, 0x11147, 1, 0x11150, 0x11172, 1, 0x11176, 0x11176, 1,
  0x11180, 0x111bf, 1, 0x111c1, 0x111c4, 1, 0x111ce, 0x111da, 1, 0x111dc, 0x111dc, 1,
  0x111e1, 0x111f4, 1, 0x11200, 0x11211, 1, 0x11213, 0x11234, 1, 0x11237, 0x11237, 1,
  0x1123e, 0x11241, 1, 0x11280, 0x11286, 1, 0x11288, 0x11288, 1, 0x1128a, 0x1128d, 1,
  0x1128f, 0x1129d, 1, 0x1129f, 0x112a8, 1, 0x112b0, 0x112e8, 1, 0x112f0, 0x112f9, 1,
  0x11300, 0x11303, 1, 0x11305, 0x1130c, 1, 0x1130f, 0x11310, 1, 0x11313, 0x11328, 1,
  0x1132a, 0x11330, 1, 0x11332, 0x11333, 1, 0x11335, 0x11339, 1, 0x1133d, 0x11344, 1,
  0x11347, 0x11348, 1, 0x1134b, 0x1134c, 1, 0x11350, 0x11350, 1, 0x11357, 0x11357, 1,
  0x1135d, 0x11363, 1, 0x11380, 0x11389, 1, 0x1138b, 0x1138b, 1, 0x1138e, 0x1138e, 1,
  0x11390, 0x113b5, 1, 0x113b7, 0x113c0, 1, 0x113c2, 0x113c2, 1, 0x113c5, 0x113c5, 1,
  0x113c7, 0x113ca, 1, 0x113cc, 0x113cd, 1, 0x113d1, 0x113d3, 2, 0x11400, 0x11441, 1,
  0x11443, 0x11445, 1, 0x11447, 0x1144a, 1, 0x11450, 0x11459, 1, 0x1145f, 0x11461, 1,
  0x11480, 0x114c1, 1, 0x114c4, 0x114c5, 1, 0x114c7, 0x114c7, 1, 0x114d0, 0x114d9, 1,
  0x11580, 0x115b5, 1, 0x115b8, 0x115be, 1, 0x115d8, 0x115dd, 1, 0x11600, 0x1163e, 1,
  0x11640, 0x11640, 1, 0x11644, 0x11644, 1, 0x11650, 0x11659, 1, 0x11680, 0x116b5, 1,
  0x116b8, 0x116b8, 1, 0x116c0, 0x116c9, 1, 0x116d0, 0x116e3, 1, 0x11700, 0x1171a, 1,
  0x1171d, 0x1172a, 1, 0x11730, 0x1173b, 1, 0x11740, 0x11746, 1, 0x11800, 0x11838, 1,
  0x118a0, 0x118f2, 1, 0x118ff, 0x11906, 1, 0x11909, 0x11909, 1, 0x1190c, 0x11913, 1,
  0x11915, 0x11916, 1, 0x11918, 0x11935, 1, 0x11937, 0x11938, 1, 0x1193b, 0x1193c, 1,
  0x1193f, 0x11942, 1, 0x11950, 0x11959, 1, 0x119a0, 0x119a7, 1, 0x119aa, 0x119d7, 1,
  0x119da, 0x119df, 1, 0x119e1, 0x119e1, 1, 0x119e3, 0x119e4, 1, 0x11a00, 0x11a32, 1,
  0x11a35, 0x11a3e, 1, 0x11a50, 0x11a97, 1, 0x11a9d, 0x11a9d, 1, 0x11ab0, 0x11af8, 1,
  0x11b60, 0x11b67, 1, 0x11bc0, 0x11be0, 1, 0x11bf0, 0x11bf9, 1, 0x11c00, 0x11c08, 1,
  0x11c0a, 0x11c36, 1, 0x11c38, 0x11c3e, 1, 0x11c40, 0x11c40, 1, 0x11c50, 0x11c6c, 1,
  0x11c72, 0x11c8f, 1, 0x11c92, 0x11ca7, 1, 0x11ca9, 0x11cb6, 1, 0x11d00, 0x11d06, 1,
  0x11d08, 0x11d09, 1, 0x11d0b, 0x11d36, 1, 0x11d3a, 0x11d3a, 1, 0x11d3c, 0x11d3d, 1,
  0x11d3f, 0x11d41, 1, 0x11d43, 0x11d43, 1, 0x11d46, 0x11d47, 1, 0x11d50, 0x11d59, 1,
  0x11d60, 0x11d65, 1, 0x11d67, 0x11d68, 1, 0x11d6a, 0x11d8e, 1, 0x11d90, 0x11d91, 1,
  0x11d93, 0x11d96, 1, 0x11d98, 0x11d98, 1, 0x11da0, 0x11da9, 1, 0x11db0, 0x11ddb, 1,
  0x11de0, 0x11de9, 1, 0x11ee0, 0x11ef6, 1, 0x11f00, 0x11f10, 1, 0x11f12, 0x11f3a, 1,
  0x11f3e, 0x11f40, 1, 0x11f50, 0x11f59, 1, 0x11fb0, 0x11fb0, 1, 0x11fc0, 0x11fd4, 1,
  0x12000, 0x12399, 1, 0x12400, 0x1246e, 1, 0x12480, 0x12543, 1, 0x12f90, 0x12ff0, 1,
  0x13000, 0x1342f, 1, 0x13441, 0x13446, 1, 0x13460, 0x143fa, 1, 0x14400, 0x14646, 1,
  0x16100, 0x1612e, 1, 0x16130, 0x16139, 1, 0x16800, 0x16a38, 1, 0x16a40, 0x16a5e, 1,
  0x16a60, 0x16a69, 1, 0x16a70, 0x16abe, 1, 0x16ac0, 0x16ac9, 1, 0x16ad0, 0x16aed, 1,
  0x16b00, 0x16b2f, 1, 0x16b40, 0x16b43, 1, 0x16b50, 0x16b59, 1, 0x16b5b, 0x16b61, 1,
  0x16b63, 0x16b77, 1, 0x16b7d, 0x16b8f, 1, 0x16d40, 0x16d6c, 1, 0x16d70, 0x16d79, 1,
  0x16e40, 0x16e96, 1, 0x16ea0, 0x16eb8, 1, 0x16ebb, 0x16ed3, 1, 0x16f00, 0x16f4a, 1,
  0x16f4f, 0x16f87, 1, 0x16f8f, 0x16f9f, 1, 0x16fe0, 0x16fe1, 1, 0x16fe3, 0x16fe3, 1,
  0x16ff0, 0x16ff6, 1, 0x17000, 0x18cd5, 1, 0x18cff, 0x18d1e, 1, 0x18d80, 0x18df2, 1,
  0x1aff0, 0x1aff3, 1, 0x1aff5, 0x1affb, 1, 0x1affd, 0x1affe, 1, 0x1b000, 0x1b122, 1,
  0x1b132, 0x1b132, 1, 0x1b150, 0x1b152, 1, 0x1b155, 0x1b155, 1, 0x1b164, 0x1b167, 1,
  0x1b170, 0x1b2fb, 1, 0x1bc00, 0x1bc6a, 1, 0x1bc70, 0x1bc7c, 1, 0x1bc80, 0x1bc88, 1,
  0x1bc90, 0x1bc99, 1, 0x1bc9e, 0x1bc9e, 1, 0x1ccf0, 0x1ccf9, 1, 0x1d2c0, 0x1d2d3, 1,
  0x1d2e0, 0x1d2f3, 1, 0x1d360, 0x1d378, 1, 0x1d400, 0x1d454, 1, 0x1d456, 0x1d49c, 1,
  0x1d49e, 0x1d49f, 1, 0x1d4a2, 0x1d4a2, 1, 0x1d4a5, 0x1d4a6, 1, 0x1d4a9, 0x1d4ac, 1,
  0x1d4ae, 0x1d4b9, 1, 0x1d4bb, 0x1d4bb, 1, 0x1d4bd, 0x1d4c3, 1, 0x1d4c5, 0x1d505, 1,
  0x1d507, 0x1d50a, 1, 0x1d50d, 0x1d514, 1, 0x1d516, 0x1d51c, 1, 0x1d51e, 0x1d539, 1,
  0x1d53b, 0x1d53e, 1, 0x1d540, 0x1d544, 1, 0x1d546, 0x1d546, 1, 0x1d54a, 0x1d550, 1,
  0x1d552, 0x1d6a5, 1, 0x1d6a8, 0x1d6c0, 1, 0x1d6c2, 0x1d6da, 1, 0x1d6dc, 0x1d6fa, 1,
  0x1d6fc, 0x1d714, 1, 0x1d716, 0x1d734, 1, 0x1d736, 0x1d74e, 1, 0x1d750, 0x1d76e, 1,
  0x1d770, 0x1d788, 1, 0x1d78a, 0x1d7a8, 1, 0x1d7aa, 0x1d7c2, 1, 0x1d7c4, 0x1d7cb, 1,
  0x1d7ce, 0x1d7ff, 1, 0x1df00, 0x1df1e, 1, 0x1df25, 0x1df2a, 1, 0x1e000, 0x1e006, 1,
  0x1e008, 0x1e018, 1, 0x1e01b, 0x1e021, 1, 0x1e023, 0x1e024, 1, 0x1e026, 0x1e02a, 1,
  0x1e030, 0x1e06d, 1, 0x1e08f, 0x1e08f, 1, 0x1e100, 0x1e12c, 1, 0x1e137, 0x1e13d, 1,
  0x1e140, 0x1e149, 1, 0x1e14e, 0x1e14e, 1, 0x1e290, 0x1e2ad, 1, 0x1e2c0, 0x1e2eb, 1,
  0x1e2f0, 0x1e2f9, 1, 0x1e4d0, 0x1e4eb, 1, 0x1e4f0, 0x1e4f9, 1, 0x1e5d0, 0x1e5ed, 1,
  0x1e5f0, 0x1e5fa, 1, 0x1e6c0, 0x1e6de, 1, 0x1e6e0, 0x1e6f5, 1, 0x1e6fe, 0x1e6ff, 1,
  0x1e7e0, 0x1e7e6, 1, 0x1e7e8, 0x1e7eb, 1, 0x1e7ed, 0x1e7ee, 1, 0x1e7f0, 0x1e7fe, 1,
  0x1e800, 0x1e8c4, 1, 0x1e8c7, 0x1e8cf, 1, 0x1e900, 0x1e943, 1, 0x1e947, 0x1e947, 1,
  0x1e94b, 0x1e94b, 1, 0x1e950, 0x1e959, 1, 0x1ec71, 0x1ecab, 1, 0x1ecad, 0x1ecaf, 1,
  0x1ecb1, 0x1ecb4, 1, 0x1ed01, 0x1ed2d, 1, 0x1ed2f, 0x1ed3d, 1, 0x1ee00, 0x1ee03, 1,
  0x1ee05, 0x1ee1f, 1, 0x1ee21, 0x1ee22, 1, 0x1ee24, 0x1ee24, 1, 0x1ee27, 0x1ee27, 1,
  0x1ee29, 0x1ee32, 1, 0x1ee34, 0x1ee37, 1, 0x1ee39, 0x1ee3b, 2, 0x1ee42, 0x1ee42, 1,
  0x1ee47, 0x1ee4b, 2, 0x1ee4d, 0x1ee4f, 1, 0x1ee51, 0x1ee52, 1, 0x1ee54, 0x1ee54, 1,
  0x1ee57, 0x1ee5f, 2, 0x1ee61, 0x1ee62, 1, 0x1ee64, 0x1ee64, 1, 0x1ee67, 0x1ee6a, 1,
  0x1ee6c, 0x1ee72, 1, 0x1ee74, 0x1ee77, 1, 0x1ee79, 0x1ee7c, 1, 0x1ee7e, 0x1ee7e, 1,
  0x1ee80, 0x1ee89, 1, 0x1ee8b, 0x1ee9b, 1, 0x1eea1, 0x1eea3, 1, 0x1eea5, 0x1eea9, 1,
  0x1eeab, 0x1eebb, 1, 0x1f100, 0x1f10c, 1, 0x1f130, 0x1f149, 1, 0x1f150, 0x1f169, 1,
  0x1f170, 0x1f189, 1, 0x1fbf0, 0x1fbf9, 1, 0x20000, 0x2a6df, 1, 0x2a700, 0x2b81d, 1,
  0x2b820, 0x2cead, 1, 0x2ceb0, 0x2ebe0, 1, 0x2ebf0, 0x2ee5d, 1, 0x2f800, 0x2fa1d, 1,
  0x30000, 0x3134a, 1, 0x31350, 0x33479, 1]

/-- Characters with the Uppercase property. -/
def uppercaseRuns : List Run := Run.table [
  0x0041, 0x005a, 1, 0x00c0, 0x00d6, 1, 0x00d8, 0x00de, 1, 0x0100, 0x0136, 2, 0x0139, 0x0147, 2,
  0x014a, 0x0176, 2, 0x0178, 0x0179, 1, 0x017b, 0x017d, 2, 0x0181, 0x0182, 1, 0x0184, 0x0184, 1,
  0x0186, 0x0187, 1, 0x0189, 0x018b, 1, 0x018e, 0x0191, 1, 0x0193, 0x0194, 1, 0x0196, 0x0198, 1,
  0x019c, 0x019d, 1, 0x019f, 0x01a0, 1, 0x01a2, 0x01a4, 2, 0x01a6, 0x01a7, 1, 0x01a9, 0x01a9, 1,
  0x01ac, 0x01ac, 1, 0x01ae, 0x01af, 1, 0x01b1, 0x01b3, 1, 0x01b5, 0x01b5, 1, 0x01b7, 0x01b8, 1,
  0x01bc, 0x01bc, 1, 0x01c4, 0x01c4, 1, 0x01c7, 0x01c7, 1, 0x01ca, 0x01ca, 1, 0x01cd, 0x01db, 2,
  0x01de, 0x01ee, 2, 0x01f1, 0x01f1, 1, 0x01f4, 0x01f4, 1, 0x01f6, 0x01f8, 1, 0x01fa, 0x0232, 2,
  0x023a, 0x023b, 1, 0x023d, 0x023e, 1, 0x0241, 0x0241, 1, 0x0243, 0x0246, 1, 0x0248, 0x024e, 2,
  0x0370, 0x0372, 2, 0x0376, 0x0376, 1, 0x037f, 0x037f, 1, 0x0386, 0x0386, 1, 0x0388, 0x038a, 1,
  0x038c, 0x038c, 1, 0x038e, 0x038f, 1, 0x0391, 0x03a1, 1, 0x03a3, 0x03ab, 1, 0x03cf, 0x03cf, 1,
  0x03d2, 0x03d4, 1, 0x03d8, 0x03ee, 2, 0x03f4, 0x03f4, 1, 0x03f7, 0x03f7, 1, 0x03f9, 0x03fa, 1,
  0x03fd, 0x042f, 1, 0x0460, 0x0480, 2, 0x048a, 0x04be, 2, 0x04c0, 0x04c1, 1, 0x04c3, 0x04cd, 2,
  0x04d0, 0x052e, 2, 0x0531, 0x0556, 1, 0x10a0, 0x10c5, 1, 0x10c7, 0x10c7, 1, 0x10cd, 0x10cd, 1,
  0x13a0, 0x13f5, 1, 0x1c89, 0x1c89, 1, 0x1c90, 0x1cba, 1, 0x1cbd, 0x1cbf, 1, 0x1e00, 0x1e94, 2,
  0x1e9e, 0x1efe, 2, 0x1f08, 0x1f0f, 1, 0x1f18, 0x1f1d, 1, 0x1f28, 0x1f2f, 1, 0x1f38, 0x1f3f, 1,
  0x1f48, 0x1f4d, 1, 0x1f59, 0x1f5f, 2, 0x1f68, 0x1f6f, 1, 0x1fb8, 0x1fbb, 1, 0x1fc8, 0x1fcb, 1,
  0x1fd8, 0x1fdb, 1, 0x1fe8, 0x1fec, 1, 0x1ff8, 0x1ffb, 1, 0x2102, 0x2102, 1, 0x2107, 0x2107, 1,
  0x210b, 0x210d, 1, 0x2110, 0x2112, 1, 0x2115, 0x2115, 1, 0x2119, 0x211d, 1, 0x2124, 0x2128, 2,
  0x212a, 0x212d, 1, 0x2130, 0x2133, 1, 0x213e, 0x213f, 1, 0x2145, 0x2145, 1, 0x2160, 0x216f, 1,
  0x2183, 0x2183, 1, 0x24b6, 0x24cf, 1, 0x2c00, 0x2c2f, 1, 0x2c60, 0x2c60, 1, 0x2c62, 0x2c64, 1,
  0x2c67, 0x2c6b, 2, 0x2c6d, 0x2c70, 1, 0x2c72, 0x2c72, 1, 0x2c75, 0x2c75, 1, 0x2c7e, 0x2c80, 1,
  0x2c82, 0x2ce2, 2, 0x2ceb, 0x2ced, 2, 0x2cf2, 0x2cf2, 1, 0xa640, 0xa66c, 2, 0xa680, 0xa69a, 2,
  0xa722, 0xa72e, 2, 0xa732, 0xa76e, 2, 0xa779, 0xa77b, 2, 0xa77d, 0xa77e, 1, 0xa780, 0xa786, 2,
  0xa78b, 0xa78d, 2, 0xa790, 0xa792, 2, 0xa796, 0xa7a8, 2, 0xa7aa, 0xa7ae, 1, 0xa7b0, 0xa7b4, 1,
  0xa7b6, 0xa7c2, 2, 0xa7c4, 0xa7c7, 1, 0xa7c9, 0xa7c9, 1, 0xa7cb, 0xa7cc, 1, 0xa7ce, 0xa7dc, 2,
  0xa7f5, 0xa7f5, 1, 0xff21, 0xff3a, 1, 0x10400, 0x10427, 1, 0x104b0, 0x104d3, 1,
  0x10570, 0x1057a, 1, 0x1057c, 0x1058a, 1, 0x1058c, 0x10592, 1, 0x10594, 0x10595, 1,
  0x10c80, 0x10cb2, 1, 0x10d50, 0x10d65, 1, 0x118a0, 0x118bf, 1, 0x16e40, 0x16e5f, 1,
  0x16ea0, 0x16eb8, 1, 0x1d400, 0x1d419, 1, 0x1d434, 0x1d44d, 1, 0x1d468, 0x1d481, 1,
  0x1d49c, 0x1d49c, 1, 0x1d49e, 0x1d49f, 1, 0x1d4a2, 0x1d4a2, 1, 0x1d4a5, 0x1d4a6, 1,
  0x1d4a9, 0x1d4ac, 1, 0x1d4ae, 0x1d4b5, 1, 0x1d4d0, 0x1d4e9, 1, 0x1d504, 0x1d505, 1,
  0x1d507, 0x1d50a, 1, 0x1d50d, 0x1d514, 1, 0x1d516, 0x1d51c, 1, 0x1d538, 0x1d539, 1,
  0x1d53b, 0x1d53e, 1, 0x1d540, 0x1d544, 1, 0x1d546, 0x1d546, 1, 0x1d54a, 0x1d550, 1,
  0x1d56c, 0x1d585, 1, 0x1d5a0, 0x1d5b9, 1, 0x1d5d4, 0x1d5ed, 1, 0x1d608, 0x1d621, 1,
  0x1d63c, 0x1d655, 1, 0x1d670, 0x1d689, 1, 0x1d6a8, 0x1d6c0, 1, 0x1d6e2, 0x1d6fa, 1,
  0x1d71c, 0x1d734, 1, 0x1d756, 0x1d76e, 1, 0x1d790, 0x1d7a8, 1, 0x1d7ca, 0x1d7ca, 1,
  0x1e900, 0x1e921, 1, 0x1f130, 0x1f149, 1, 0x1f150, 0x1f169, 1, 0x1f170, 0x1f189, 1]

/-- Characters with the Lowercase property. -/
def lowercaseRuns : List Run := Run.table [
  0x0061, 0x007a, 1, 0x00aa, 0x00aa, 1, 0x00b5, 0x00b5, 1, 0x00ba, 0x00ba, 1, 0x00df, 0x00f6, 1,
  0x00f8, 0x00ff, 1, 0x0101, 0x0135, 2, 0x0137, 0x0138, 1, 0x013a, 0x0146, 2, 0x0148, 0x0149, 1,
  0x014b, 0x0177, 2, 0x017a, 0x017c, 2, 0x017e, 0x0180, 1, 0x0183, 0x0185, 2, 0x0188, 0x0188, 1,
  0x018c, 0x018d, 1, 0x0192, 0x0192, 1, 0x0195, 0x0195, 1, 0x0199, 0x019b, 1, 0x019e, 0x019e, 1,
  0x01a1, 0x01a5, 2, 0x01a8, 0x01a8, 1, 0x01aa, 0x01ab, 1, 0x01ad, 0x01ad, 1, 0x01b0, 0x01b0, 1,
  0x01b4, 0x01b6, 2, 0x01b9, 0x01ba, 1, 0x01bd, 0x01bf, 1, 0x01c6, 0x01c6, 1, 0x01c9, 0x01c9, 1,
  0x01cc, 0x01da, 2, 0x01dc, 0x01dd, 1, 0x01df, 0x01ed, 2, 0x01ef, 0x01f0, 1, 0x01f3, 0x01f5, 2,
  0x01f9, 0x0231, 2, 0x0233, 0x0239, 1, 0x023c, 0x023c, 1, 0x023f, 0x0240, 1, 0x0242, 0x0242, 1,
  0x0247, 0x024d, 2, 0x024f, 0x0293, 1, 0x0296, 0x02b8, 1, 0x02c0, 0x02c1, 1, 0x02e0, 0x02e4, 1,
  0x0345, 0x0345, 1, 0x0371, 0x0373, 2, 0x0377, 0x0377, 1, 0x037a, 0x037d, 1, 0x0390, 0x0390, 1,
  0x03ac, 0x03ce, 1, 0x03d0, 0x03d1, 1, 0x03d5, 0x03d7, 1, 0x03d9, 0x03ed, 2, 0x03ef, 0x03f3, 1,
  0x03f5, 0x03f5, 1, 0x03f8, 0x03f8, 1, 0x03fb, 0x03fc, 1, 0x0430, 0x045f, 1, 0x0461, 0x0481, 2,
  0x048b, 0x04bf, 2, 0x04c2, 0x04cc, 2, 0x04ce, 0x04cf, 1, 0x04d1, 0x052f, 2, 0x0560, 0x0588, 1,
  0x10d0, 0x10fa, 1, 0x10fc, 0x10ff, 1, 0x13f8, 0x13fd, 1, 0x1c80, 0x1c88, 1, 0x1c8a, 0x1c8a, 1,
  0x1d00, 0x1dbf, 1, 0x1e01, 0x1e93, 2, 0x1e95, 0x1e9d, 1, 0x1e9f, 0x1efd, 2, 0x1eff, 0x1f07, 1,
  0x1f10, 0x1f15, 1, 0x1f20, 0x1f27, 1, 0x1f30, 0x1f37, 1, 0x1f40, 0x1f45, 1, 0x1f50, 0x1f57, 1,
  0x1f60, 0x1f67, 1, 0x1f70, 0x1f7d, 1, 0x1f80, 0x1f87, 1, 0x1f90, 0x1f97, 1, 0x1fa0, 0x1fa7, 1,
  0x1fb0, 0x1fb4, 1, 0x1fb6, 0x1fb7, 1, 0x1fbe, 0x1fbe, 1, 0x1fc2, 0x1fc4, 1, 0x1fc6, 0x1fc7, 1,
  0x1fd0, 0x1fd3, 1, 0x1fd6, 0x1fd7, 1, 0x1fe0, 0x1fe7, 1, 0x1ff2, 0x1ff4, 1, 0x1ff6, 0x1ff7, 1,
  0x2071, 0x2071, 1, 0x207f, 0x207f, 1, 0x2090, 0x209c, 1, 0x210a, 0x210a, 1, 0x210e, 0x210f, 1,
  0x2113, 0x2113, 1, 0x212f, 0x212f, 1, 0x2134, 0x2134, 1, 0x2139, 0x2139, 1, 0x213c, 0x213d, 1,
  0x2146, 0x2149, 1, 0x214e, 0x214e, 1, 0x2170, 0x217f, 1, 0x2184, 0x2184, 1, 0x24d0, 0x24e9, 1,
  0x2c30, 0x2c5f, 1, 0x2c61, 0x2c61, 1, 0x2c65, 0x2c66, 1, 0x2c68, 0x2c6c, 2, 0x2c71, 0x2c71, 1,
  0x2c73, 0x2c74, 1, 0x2c76, 0x2c7d, 1, 0x2c81, 0x2ce1, 2, 0x2ce3, 0x2ce4, 1, 0x2cec, 0x2cee, 2,
  0x2cf3, 0x2cf3, 1, 0x2d00, 0x2d25, 1, 0x2d27, 0x2d27, 1, 0x2d2d, 0x2d2d, 1, 0xa641, 0xa66d, 2,
  0xa681, 0xa699, 2, 0xa69b, 0xa69d, 1, 0xa723, 0xa72d, 2, 0xa72f, 0xa731, 1, 0xa733, 0xa76d, 2,
  0xa76f, 0xa778, 1, 0xa77a, 0xa77c, 2, 0xa77f, 0xa787, 2, 0xa78c, 0xa78e, 2, 0xa791, 0xa791, 1,
  0xa793, 0xa795, 1, 0xa797, 0xa7a9, 2, 0xa7af, 0xa7af, 1, 0xa7b5, 0xa7c3, 2, 0xa7c8, 0xa7ca, 2,
  0xa7cd, 0xa7db, 2, 0xa7f1, 0xa7f4, 1, 0xa7f6, 0xa7f6, 1, 0xa7f8, 0xa7fa, 1, 0xab30, 0xab5a, 1,
  0xab5c, 0xab69, 1, 0xab70, 0xabbf, 1, 0xfb00, 0xfb06, 1, 0xfb13, 0xfb17, 1, 0xff41, 0xff5a, 1,
  0x10428, 0x1044f, 1, 0x104d8, 0x104fb, 1, 0x10597, 0x105a1, 1, 0x105a3, 0x105b1, 1,
  0x105b3, 0x105b9, 1, 0x105bb, 0x105bc, 1, 0x10780, 0x10780, 1, 0x10783, 0x10785, 1,
  0x10787, 0x107b0, 1, 0x107b2, 0x107ba, 1, 0x10cc0, 0x10cf2, 1, 0x10d70, 0x10d85, 1,
  0x118c0, 0x118df, 1, 0x16e60, 0x16e7f, 1, 0x16ebb, 0x16ed3, 1, 0x1d41a, 0x1d433, 1,
  0x1d44e, 0x1d454, 1, 0x1d456, 0x1d467, 1, 0x1d482, 0x1d49b, 1, 0x1d4b6, 0x1d4b9, 1,
  0x1d4bb, 0x1d4bb, 1, 0x1d4bd, 0x1d4c3, 1, 0x1d4c5, 0x1d4cf, 1, 0x1d4ea, 0x1d503, 1,
  0x1d51e, 0x1d537, 1, 0x1d552, 0x1d56b, 1, 0x1d586, 0x1d59f, 1, 0x1d5ba, 0x1d5d3, 1,
  0x1d5ee, 0x1d607, 1, 0x1d622, 0x1d63b, 1, 0x1d656, 0x1d66f, 1, 0x1d68a, 0x1d6a5, 1,
  0x1d6c2, 0x1d6da, 1, 0x1d6dc, 0x1d6e1, 1, 0x1d6fc, 0x1d714, 1, 0x1d716, 0x1d71b, 1,
  0x1d736, 0x1d74e, 1, 0x1d750, 0x1d755, 1, 0x1d770, 0x1d788, 1, 0x1d78a, 0x1d78f, 1,
  0x1d7aa, 0x1d7c2, 1, 0x1d7c4, 0x1d7c9, 1, 0x1d7cb, 0x1d7cb, 1, 0x1df00, 0x1df09, 1,
  0x1df0b, 0x1df1e, 1, 0x1df25, 0x1df2a, 1, 0x1e030, 0x1e06d, 1, 0x1e922, 0x1e943, 1]

/-- An alphabetic or numeric character. -/
def isAlphanumeric (c : Char) : Bool :=
  if c.toNat < 128 then c.isAlphanum else Run.covers alphanumericRuns c

/-- An upper-case letter or letter-like symbol. -/
def isUppercase (c : Char) : Bool :=
  if c.toNat < 128 then c.isUpper else Run.covers uppercaseRuns c

/-- A lower-case letter or letter-like symbol. -/
def isLowercase (c : Char) : Bool :=
  if c.toNat < 128 then c.isLower else Run.covers lowercaseRuns c

/-- The ASCII characters of a character's full upper-case mapping, in order. -/
def asciiUpper (c : Char) : List Char :=
  if c.toNat < 128 then [c.toUpper]
  else match c.toNat with
    | 0xdf => ['S', 'S']
    | 0x131 => ['I']
    | 0x149 => ['N']
    | 0x17f => ['S']
    | 0x1f0 => ['J']
    | 0x1e96 => ['H']
    | 0x1e97 => ['T']
    | 0x1e98 => ['W']
    | 0x1e99 => ['Y']
    | 0x1e9a => ['A']
    | 0xfb00 => ['F', 'F']
    | 0xfb01 => ['F', 'I']
    | 0xfb02 => ['F', 'L']
    | 0xfb03 => ['F', 'F', 'I']
    | 0xfb04 => ['F', 'F', 'L']
    | 0xfb05 => ['S', 'T']
    | 0xfb06 => ['S', 'T']
    | _ => []

/-- The ASCII characters of a character's full lower-case mapping, in order. -/
def asciiLower (c : Char) : List Char :=
  if c.toNat < 128 then [c.toLower]
  else match c.toNat with
    | 0x130 => ['i']
    | 0x212a => ['k']
    | _ => []

end WireShapes.Text
