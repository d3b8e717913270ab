import SqlTree.Text.Case

/-!
# Lower case of words

A capital sigma at the end of a word has a lower case of its own, so the lower case of a text needs
to know where words end: after a cased letter, with no cased letter behind, whatever case-ignorable
characters stand between.
-/

namespace SqlTree.Text

/-- Letters with a case that are not case-ignorable. -/
def casedRuns : List CaseRun := [
  ⟨0x41, 0x5a, 1, 0⟩, ⟨0x61, 0x7a, 1, 0⟩, ⟨0xaa, 0xaa, 1, 0⟩, ⟨0xb5, 0xb5, 1, 0⟩,
  ⟨0xba, 0xba, 1, 0⟩, ⟨0xc0, 0xd6, 1, 0⟩, ⟨0xd8, 0xf6, 1, 0⟩, ⟨0xf8, 0x1ba, 1, 0⟩,
  ⟨0x1bc, 0x1bf, 1, 0⟩, ⟨0x1c4, 0x293, 1, 0⟩, ⟨0x296, 0x2af, 1, 0⟩, ⟨0x370, 0x373, 1, 0⟩,
  ⟨0x376, 0x377, 1, 0⟩, ⟨0x37b, 0x37d, 1, 0⟩, ⟨0x37f, 0x37f, 1, 0⟩, ⟨0x386, 0x386, 1, 0⟩,
  ⟨0x388, 0x38a, 1, 0⟩, ⟨0x38c, 0x38c, 1, 0⟩, ⟨0x38e, 0x3a1, 1, 0⟩, ⟨0x3a3, 0x3f5, 1, 0⟩,
  ⟨0x3f7, 0x481, 1, 0⟩, ⟨0x48a, 0x52f, 1, 0⟩, ⟨0x531, 0x556, 1, 0⟩, ⟨0x560, 0x588, 1, 0⟩,
  ⟨0x10a0, 0x10c5, 1, 0⟩, ⟨0x10c7, 0x10c7, 1, 0⟩, ⟨0x10cd, 0x10cd, 1, 0⟩, ⟨0x10d0, 0x10fa, 1, 0⟩,
  ⟨0x10fd, 0x10ff, 1, 0⟩, ⟨0x13a0, 0x13f5, 1, 0⟩, ⟨0x13f8, 0x13fd, 1, 0⟩, ⟨0x1c80, 0x1c8a, 1, 0⟩,
  ⟨0x1c90, 0x1cba, 1, 0⟩, ⟨0x1cbd, 0x1cbf, 1, 0⟩, ⟨0x1d00, 0x1d2b, 1, 0⟩, ⟨0x1d6b, 0x1d77, 1, 0⟩,
  ⟨0x1d79, 0x1d9a, 1, 0⟩, ⟨0x1e00, 0x1f15, 1, 0⟩, ⟨0x1f18, 0x1f1d, 1, 0⟩, ⟨0x1f20, 0x1f45, 1, 0⟩,
  ⟨0x1f48, 0x1f4d, 1, 0⟩, ⟨0x1f50, 0x1f57, 1, 0⟩, ⟨0x1f59, 0x1f5f, 2, 0⟩, ⟨0x1f60, 0x1f7d, 1, 0⟩,
  ⟨0x1f80, 0x1fb4, 1, 0⟩, ⟨0x1fb6, 0x1fbc, 1, 0⟩, ⟨0x1fbe, 0x1fbe, 1, 0⟩, ⟨0x1fc2, 0x1fc4, 1, 0⟩,
  ⟨0x1fc6, 0x1fcc, 1, 0⟩, ⟨0x1fd0, 0x1fd3, 1, 0⟩, ⟨0x1fd6, 0x1fdb, 1, 0⟩, ⟨0x1fe0, 0x1fec, 1, 0⟩,
  ⟨0x1ff2, 0x1ff4, 1, 0⟩, ⟨0x1ff6, 0x1ffc, 1, 0⟩, ⟨0x2102, 0x2102, 1, 0⟩, ⟨0x2107, 0x2107, 1, 0⟩,
  ⟨0x210a, 0x2113, 1, 0⟩, ⟨0x2115, 0x2115, 1, 0⟩, ⟨0x2119, 0x211d, 1, 0⟩, ⟨0x2124, 0x212a, 2, 0⟩,
  ⟨0x212b, 0x212d, 1, 0⟩, ⟨0x212f, 0x2134, 1, 0⟩, ⟨0x2139, 0x2139, 1, 0⟩, ⟨0x213c, 0x213f, 1, 0⟩,
  ⟨0x2145, 0x2149, 1, 0⟩, ⟨0x214e, 0x214e, 1, 0⟩, ⟨0x2160, 0x217f, 1, 0⟩, ⟨0x2183, 0x2184, 1, 0⟩,
  ⟨0x24b6, 0x24e9, 1, 0⟩, ⟨0x2c00, 0x2c7b, 1, 0⟩, ⟨0x2c7e, 0x2ce4, 1, 0⟩, ⟨0x2ceb, 0x2cee, 1, 0⟩,
  ⟨0x2cf2, 0x2cf3, 1, 0⟩, ⟨0x2d00, 0x2d25, 1, 0⟩, ⟨0x2d27, 0x2d27, 1, 0⟩, ⟨0x2d2d, 0x2d2d, 1, 0⟩,
  ⟨0xa640, 0xa66d, 1, 0⟩, ⟨0xa680, 0xa69b, 1, 0⟩, ⟨0xa722, 0xa76f, 1, 0⟩, ⟨0xa771, 0xa787, 1, 0⟩,
  ⟨0xa78b, 0xa78e, 1, 0⟩, ⟨0xa790, 0xa7dc, 1, 0⟩, ⟨0xa7f5, 0xa7f6, 1, 0⟩, ⟨0xa7fa, 0xa7fa, 1, 0⟩,
  ⟨0xab30, 0xab5a, 1, 0⟩, ⟨0xab60, 0xab68, 1, 0⟩, ⟨0xab70, 0xabbf, 1, 0⟩, ⟨0xfb00, 0xfb06, 1, 0⟩,
  ⟨0xfb13, 0xfb17, 1, 0⟩, ⟨0xff21, 0xff3a, 1, 0⟩, ⟨0xff41, 0xff5a, 1, 0⟩, ⟨0x10400, 0x1044f, 1, 0⟩,
  ⟨0x104b0, 0x104d3, 1, 0⟩, ⟨0x104d8, 0x104fb, 1, 0⟩, ⟨0x10570, 0x1057a, 1, 0⟩,
  ⟨0x1057c, 0x1058a, 1, 0⟩, ⟨0x1058c, 0x10592, 1, 0⟩, ⟨0x10594, 0x10595, 1, 0⟩,
  ⟨0x10597, 0x105a1, 1, 0⟩, ⟨0x105a3, 0x105b1, 1, 0⟩, ⟨0x105b3, 0x105b9, 1, 0⟩,
  ⟨0x105bb, 0x105bc, 1, 0⟩, ⟨0x10c80, 0x10cb2, 1, 0⟩, ⟨0x10cc0, 0x10cf2, 1, 0⟩,
  ⟨0x10d50, 0x10d65, 1, 0⟩, ⟨0x10d70, 0x10d85, 1, 0⟩, ⟨0x118a0, 0x118df, 1, 0⟩,
  ⟨0x16e40, 0x16e7f, 1, 0⟩, ⟨0x16ea0, 0x16eb8, 1, 0⟩, ⟨0x16ebb, 0x16ed3, 1, 0⟩,
  ⟨0x1d400, 0x1d454, 1, 0⟩, ⟨0x1d456, 0x1d49c, 1, 0⟩, ⟨0x1d49e, 0x1d49f, 1, 0⟩,
  ⟨0x1d4a2, 0x1d4a2, 1, 0⟩, ⟨0x1d4a5, 0x1d4a6, 1, 0⟩, ⟨0x1d4a9, 0x1d4ac, 1, 0⟩,
  ⟨0x1d4ae, 0x1d4b9, 1, 0⟩, ⟨0x1d4bb, 0x1d4bb, 1, 0⟩, ⟨0x1d4bd, 0x1d4c3, 1, 0⟩,
  ⟨0x1d4c5, 0x1d505, 1, 0⟩, ⟨0x1d507, 0x1d50a, 1, 0⟩, ⟨0x1d50d, 0x1d514, 1, 0⟩,
  ⟨0x1d516, 0x1d51c, 1, 0⟩, ⟨0x1d51e, 0x1d539, 1, 0⟩, ⟨0x1d53b, 0x1d53e, 1, 0⟩,
  ⟨0x1d540, 0x1d544, 1, 0⟩, ⟨0x1d546, 0x1d546, 1, 0⟩, ⟨0x1d54a, 0x1d550, 1, 0⟩,
  ⟨0x1d552, 0x1d6a5, 1, 0⟩, ⟨0x1d6a8, 0x1d6c0, 1, 0⟩, ⟨0x1d6c2, 0x1d6da, 1, 0⟩,
  ⟨0x1d6dc, 0x1d6fa, 1, 0⟩, ⟨0x1d6fc, 0x1d714, 1, 0⟩, ⟨0x1d716, 0x1d734, 1, 0⟩,
  ⟨0x1d736, 0x1d74e, 1, 0⟩, ⟨0x1d750, 0x1d76e, 1, 0⟩, ⟨0x1d770, 0x1d788, 1, 0⟩,
  ⟨0x1d78a, 0x1d7a8, 1, 0⟩, ⟨0x1d7aa, 0x1d7c2, 1, 0⟩, ⟨0x1d7c4, 0x1d7cb, 1, 0⟩,
  ⟨0x1df00, 0x1df09, 1, 0⟩, ⟨0x1df0b, 0x1df1e, 1, 0⟩, ⟨0x1df25, 0x1df2a, 1, 0⟩,
  ⟨0x1e900, 0x1e943, 1, 0⟩, ⟨0x1f130, 0x1f149, 1, 0⟩, ⟨0x1f150, 0x1f169, 1, 0⟩,
  ⟨0x1f170, 0x1f189, 1, 0⟩]

/-- Case-ignorable characters. -/
def ignorableRuns : List CaseRun := [
  ⟨0x27, 0x27, 1, 0⟩, ⟨0x2e, 0x2e, 1, 0⟩, ⟨0x3a, 0x3a, 1, 0⟩, ⟨0x5e, 0x60, 2, 0⟩,
  ⟨0xa8, 0xa8, 1, 0⟩, ⟨0xad, 0xaf, 2, 0⟩, ⟨0xb4, 0xb4, 1, 0⟩, ⟨0xb7, 0xb8, 1, 0⟩,
  ⟨0x2b0, 0x36f, 1, 0⟩, ⟨0x374, 0x375, 1, 0⟩, ⟨0x37a, 0x37a, 1, 0⟩, ⟨0x384, 0x385, 1, 0⟩,
  ⟨0x387, 0x387, 1, 0⟩, ⟨0x483, 0x489, 1, 0⟩, ⟨0x559, 0x559, 1, 0⟩, ⟨0x55f, 0x55f, 1, 0⟩,
  ⟨0x591, 0x5bd, 1, 0⟩, ⟨0x5bf, 0x5bf, 1, 0⟩, ⟨0x5c1, 0x5c2, 1, 0⟩, ⟨0x5c4, 0x5c5, 1, 0⟩,
  ⟨0x5c7, 0x5c7, 1, 0⟩, ⟨0x5f4, 0x5f4, 1, 0⟩, ⟨0x600, 0x605, 1, 0⟩, ⟨0x610, 0x61a, 1, 0⟩,
  ⟨0x61c, 0x61c, 1, 0⟩, ⟨0x640, 0x640, 1, 0⟩, ⟨0x64b, 0x65f, 1, 0⟩, ⟨0x670, 0x670, 1, 0⟩,
  ⟨0x6d6, 0x6dd, 1, 0⟩, ⟨0x6df, 0x6e8, 1, 0⟩, ⟨0x6ea, 0x6ed, 1, 0⟩, ⟨0x70f, 0x711, 2, 0⟩,
  ⟨0x730, 0x74a, 1, 0⟩, ⟨0x7a6, 0x7b0, 1, 0⟩, ⟨0x7eb, 0x7f5, 1, 0⟩, ⟨0x7fa, 0x7fa, 1, 0⟩,
  ⟨0x7fd, 0x7fd, 1, 0⟩, ⟨0x816, 0x82d, 1, 0⟩, ⟨0x859, 0x85b, 1, 0⟩, ⟨0x888, 0x888, 1, 0⟩,
  ⟨0x890, 0x891, 1, 0⟩, ⟨0x897, 0x89f, 1, 0⟩, ⟨0x8c9, 0x902, 1, 0⟩, ⟨0x93a, 0x93c, 2, 0⟩,
  ⟨0x941, 0x948, 1, 0⟩, ⟨0x94d, 0x94d, 1, 0⟩, ⟨0x951, 0x957, 1, 0⟩, ⟨0x962, 0x963, 1, 0⟩,
  ⟨0x971, 0x971, 1, 0⟩, ⟨0x981, 0x981, 1, 0⟩, ⟨0x9bc, 0x9bc, 1, 0⟩, ⟨0x9c1, 0x9c4, 1, 0⟩,
  ⟨0x9cd, 0x9cd, 1, 0⟩, ⟨0x9e2, 0x9e3, 1, 0⟩, ⟨0x9fe, 0x9fe, 1, 0⟩, ⟨0xa01, 0xa02, 1, 0⟩,
  ⟨0xa3c, 0xa3c, 1, 0⟩, ⟨0xa41, 0xa42, 1, 0⟩, ⟨0xa47, 0xa48, 1, 0⟩, ⟨0xa4b, 0xa4d, 1, 0⟩,
  ⟨0xa51, 0xa51, 1, 0⟩, ⟨0xa70, 0xa71, 1, 0⟩, ⟨0xa75, 0xa75, 1, 0⟩, ⟨0xa81, 0xa82, 1, 0⟩,
  ⟨0xabc, 0xabc, 1, 0⟩, ⟨0xac1, 0xac5, 1, 0⟩, ⟨0xac7, 0xac8, 1, 0⟩, ⟨0xacd, 0xacd, 1, 0⟩,
  ⟨0xae2, 0xae3, 1, 0⟩, ⟨0xafa, 0xaff, 1, 0⟩, ⟨0xb01, 0xb01, 1, 0⟩, ⟨0xb3c, 0xb3c, 1, 0⟩,
  ⟨0xb3f, 0xb3f, 1, 0⟩, ⟨0xb41, 0xb44, 1, 0⟩, ⟨0xb4d, 0xb4d, 1, 0⟩, ⟨0xb55, 0xb56, 1, 0⟩,
  ⟨0xb62, 0xb63, 1, 0⟩, ⟨0xb82, 0xb82, 1, 0⟩, ⟨0xbc0, 0xbc0, 1, 0⟩, ⟨0xbcd, 0xbcd, 1, 0⟩,
  ⟨0xc00, 0xc00, 1, 0⟩, ⟨0xc04, 0xc04, 1, 0⟩, ⟨0xc3c, 0xc3c, 1, 0⟩, ⟨0xc3e, 0xc40, 1, 0⟩,
  ⟨0xc46, 0xc48, 1, 0⟩, ⟨0xc4a, 0xc4d, 1, 0⟩, ⟨0xc55, 0xc56, 1, 0⟩, ⟨0xc62, 0xc63, 1, 0⟩,
  ⟨0xc81, 0xc81, 1, 0⟩, ⟨0xcbc, 0xcbc, 1, 0⟩, ⟨0xcbf, 0xcbf, 1, 0⟩, ⟨0xcc6, 0xcc6, 1, 0⟩,
  ⟨0xccc, 0xccd, 1, 0⟩, ⟨0xce2, 0xce3, 1, 0⟩, ⟨0xd00, 0xd01, 1, 0⟩, ⟨0xd3b, 0xd3c, 1, 0⟩,
  ⟨0xd41, 0xd44, 1, 0⟩, ⟨0xd4d, 0xd4d, 1, 0⟩, ⟨0xd62, 0xd63, 1, 0⟩, ⟨0xd81, 0xd81, 1, 0⟩,
  ⟨0xdca, 0xdca, 1, 0⟩, ⟨0xdd2, 0xdd4, 1, 0⟩, ⟨0xdd6, 0xdd6, 1, 0⟩, ⟨0xe31, 0xe31, 1, 0⟩,
  ⟨0xe34, 0xe3a, 1, 0⟩, ⟨0xe46, 0xe4e, 1, 0⟩, ⟨0xeb1, 0xeb1, 1, 0⟩, ⟨0xeb4, 0xebc, 1, 0⟩,
  ⟨0xec6, 0xec6, 1, 0⟩, ⟨0xec8, 0xece, 1, 0⟩, ⟨0xf18, 0xf19, 1, 0⟩, ⟨0xf35, 0xf39, 2, 0⟩,
  ⟨0xf71, 0xf7e, 1, 0⟩, ⟨0xf80, 0xf84, 1, 0⟩, ⟨0xf86, 0xf87, 1, 0⟩, ⟨0xf8d, 0xf97, 1, 0⟩,
  ⟨0xf99, 0xfbc, 1, 0⟩, ⟨0xfc6, 0xfc6, 1, 0⟩, ⟨0x102d, 0x1030, 1, 0⟩, ⟨0x1032, 0x1037, 1, 0⟩,
  ⟨0x1039, 0x103a, 1, 0⟩, ⟨0x103d, 0x103e, 1, 0⟩, ⟨0x1058, 0x1059, 1, 0⟩, ⟨0x105e, 0x1060, 1, 0⟩,
  ⟨0x1071, 0x1074, 1, 0⟩, ⟨0x1082, 0x1082, 1, 0⟩, ⟨0x1085, 0x1086, 1, 0⟩, ⟨0x108d, 0x108d, 1, 0⟩,
  ⟨0x109d, 0x109d, 1, 0⟩, ⟨0x10fc, 0x10fc, 1, 0⟩, ⟨0x135d, 0x135f, 1, 0⟩, ⟨0x1712, 0x1714, 1, 0⟩,
  ⟨0x1732, 0x1733, 1, 0⟩, ⟨0x1752, 0x1753, 1, 0⟩, ⟨0x1772, 0x1773, 1, 0⟩, ⟨0x17b4, 0x17b5, 1, 0⟩,
  ⟨0x17b7, 0x17bd, 1, 0⟩, ⟨0x17c6, 0x17c6, 1, 0⟩, ⟨0x17c9, 0x17d3, 1, 0⟩, ⟨0x17d7, 0x17d7, 1, 0⟩,
  ⟨0x17dd, 0x17dd, 1, 0⟩, ⟨0x180b, 0x180f, 1, 0⟩, ⟨0x1843, 0x1843, 1, 0⟩, ⟨0x1885, 0x1886, 1, 0⟩,
  ⟨0x18a9, 0x18a9, 1, 0⟩, ⟨0x1920, 0x1922, 1, 0⟩, ⟨0x1927, 0x1928, 1, 0⟩, ⟨0x1932, 0x1932, 1, 0⟩,
  ⟨0x1939, 0x193b, 1, 0⟩, ⟨0x1a17, 0x1a18, 1, 0⟩, ⟨0x1a1b, 0x1a1b, 1, 0⟩, ⟨0x1a56, 0x1a56, 1, 0⟩,
  ⟨0x1a58, 0x1a5e, 1, 0⟩, ⟨0x1a60, 0x1a62, 2, 0⟩, ⟨0x1a65, 0x1a6c, 1, 0⟩, ⟨0x1a73, 0x1a7c, 1, 0⟩,
  ⟨0x1a7f, 0x1a7f, 1, 0⟩, ⟨0x1aa7, 0x1aa7, 1, 0⟩, ⟨0x1ab0, 0x1add, 1, 0⟩, ⟨0x1ae0, 0x1aeb, 1, 0⟩,
  ⟨0x1b00, 0x1b03, 1, 0⟩, ⟨0x1b34, 0x1b34, 1, 0⟩, ⟨0x1b36, 0x1b3a, 1, 0⟩, ⟨0x1b3c, 0x1b3c, 1, 0⟩,
  ⟨0x1b42, 0x1b42, 1, 0⟩, ⟨0x1b6b, 0x1b73, 1, 0⟩, ⟨0x1b80, 0x1b81, 1, 0⟩, ⟨0x1ba2, 0x1ba5, 1, 0⟩,
  ⟨0x1ba8, 0x1ba9, 1, 0⟩, ⟨0x1bab, 0x1bad, 1, 0⟩, ⟨0x1be6, 0x1be6, 1, 0⟩, ⟨0x1be8, 0x1be9, 1, 0⟩,
  ⟨0x1bed, 0x1bed, 1, 0⟩, ⟨0x1bef, 0x1bf1, 1, 0⟩, ⟨0x1c2c, 0x1c33, 1, 0⟩, ⟨0x1c36, 0x1c37, 1, 0⟩,
  ⟨0x1c78, 0x1c7d, 1, 0⟩, ⟨0x1cd0, 0x1cd2, 1, 0⟩, ⟨0x1cd4, 0x1ce0, 1, 0⟩, ⟨0x1ce2, 0x1ce8, 1, 0⟩,
  ⟨0x1ced, 0x1ced, 1, 0⟩, ⟨0x1cf4, 0x1cf4, 1, 0⟩, ⟨0x1cf8, 0x1cf9, 1, 0⟩, ⟨0x1d2c, 0x1d6a, 1, 0⟩,
  ⟨0x1d78, 0x1d78, 1, 0⟩, ⟨0x1d9b, 0x1dff, 1, 0⟩, ⟨0x1fbd, 0x1fbd, 1, 0⟩, ⟨0x1fbf, 0x1fc1, 1, 0⟩,
  ⟨0x1fcd, 0x1fcf, 1, 0⟩, ⟨0x1fdd, 0x1fdf, 1, 0⟩, ⟨0x1fed, 0x1fef, 1, 0⟩, ⟨0x1ffd, 0x1ffe, 1, 0⟩,
  ⟨0x200b, 0x200f, 1, 0⟩, ⟨0x2018, 0x2019, 1, 0⟩, ⟨0x2024, 0x2024, 1, 0⟩, ⟨0x2027, 0x2027, 1, 0⟩,
  ⟨0x202a, 0x202e, 1, 0⟩, ⟨0x2060, 0x2064, 1, 0⟩, ⟨0x2066, 0x206f, 1, 0⟩, ⟨0x2071, 0x2071, 1, 0⟩,
  ⟨0x207f, 0x207f, 1, 0⟩, ⟨0x2090, 0x209c, 1, 0⟩, ⟨0x20d0, 0x20f0, 1, 0⟩, ⟨0x2c7c, 0x2c7d, 1, 0⟩,
  ⟨0x2cef, 0x2cf1, 1, 0⟩, ⟨0x2d6f, 0x2d6f, 1, 0⟩, ⟨0x2d7f, 0x2d7f, 1, 0⟩, ⟨0x2de0, 0x2dff, 1, 0⟩,
  ⟨0x2e2f, 0x2e2f, 1, 0⟩, ⟨0x3005, 0x3005, 1, 0⟩, ⟨0x302a, 0x302d, 1, 0⟩, ⟨0x3031, 0x3035, 1, 0⟩,
  ⟨0x303b, 0x303b, 1, 0⟩, ⟨0x3099, 0x309e, 1, 0⟩, ⟨0x30fc, 0x30fe, 1, 0⟩, ⟨0xa015, 0xa015, 1, 0⟩,
  ⟨0xa4f8, 0xa4fd, 1, 0⟩, ⟨0xa60c, 0xa60c, 1, 0⟩, ⟨0xa66f, 0xa672, 1, 0⟩, ⟨0xa674, 0xa67d, 1, 0⟩,
  ⟨0xa67f, 0xa67f, 1, 0⟩, ⟨0xa69c, 0xa69f, 1, 0⟩, ⟨0xa6f0, 0xa6f1, 1, 0⟩, ⟨0xa700, 0xa721, 1, 0⟩,
  ⟨0xa770, 0xa770, 1, 0⟩, ⟨0xa788, 0xa78a, 1, 0⟩, ⟨0xa7f1, 0xa7f4, 1, 0⟩, ⟨0xa7f8, 0xa7f9, 1, 0⟩,
  ⟨0xa802, 0xa802, 1, 0⟩, ⟨0xa806, 0xa806, 1, 0⟩, ⟨0xa80b, 0xa80b, 1, 0⟩, ⟨0xa825, 0xa826, 1, 0⟩,
  ⟨0xa82c, 0xa82c, 1, 0⟩, ⟨0xa8c4, 0xa8c5, 1, 0⟩, ⟨0xa8e0, 0xa8f1, 1, 0⟩, ⟨0xa8ff, 0xa8ff, 1, 0⟩,
  ⟨0xa926, 0xa92d, 1, 0⟩, ⟨0xa947, 0xa951, 1, 0⟩, ⟨0xa980, 0xa982, 1, 0⟩, ⟨0xa9b3, 0xa9b3, 1, 0⟩,
  ⟨0xa9b6, 0xa9b9, 1, 0⟩, ⟨0xa9bc, 0xa9bd, 1, 0⟩, ⟨0xa9cf, 0xa9cf, 1, 0⟩, ⟨0xa9e5, 0xa9e6, 1, 0⟩,
  ⟨0xaa29, 0xaa2e, 1, 0⟩, ⟨0xaa31, 0xaa32, 1, 0⟩, ⟨0xaa35, 0xaa36, 1, 0⟩, ⟨0xaa43, 0xaa43, 1, 0⟩,
  ⟨0xaa4c, 0xaa4c, 1, 0⟩, ⟨0xaa70, 0xaa70, 1, 0⟩, ⟨0xaa7c, 0xaa7c, 1, 0⟩, ⟨0xaab0, 0xaab0, 1, 0⟩,
  ⟨0xaab2, 0xaab4, 1, 0⟩, ⟨0xaab7, 0xaab8, 1, 0⟩, ⟨0xaabe, 0xaabf, 1, 0⟩, ⟨0xaac1, 0xaac1, 1, 0⟩,
  ⟨0xaadd, 0xaadd, 1, 0⟩, ⟨0xaaec, 0xaaed, 1, 0⟩, ⟨0xaaf3, 0xaaf4, 1, 0⟩, ⟨0xaaf6, 0xaaf6, 1, 0⟩,
  ⟨0xab5b, 0xab5f, 1, 0⟩, ⟨0xab69, 0xab6b, 1, 0⟩, ⟨0xabe5, 0xabe5, 1, 0⟩, ⟨0xabe8, 0xabe8, 1, 0⟩,
  ⟨0xabed, 0xabed, 1, 0⟩, ⟨0xfb1e, 0xfb1e, 1, 0⟩, ⟨0xfbb2, 0xfbc2, 1, 0⟩, ⟨0xfe00, 0xfe0f, 1, 0⟩,
  ⟨0xfe13, 0xfe13, 1, 0⟩, ⟨0xfe20, 0xfe2f, 1, 0⟩, ⟨0xfe52, 0xfe52, 1, 0⟩, ⟨0xfe55, 0xfe55, 1, 0⟩,
  ⟨0xfeff, 0xfeff, 1, 0⟩, ⟨0xff07, 0xff07, 1, 0⟩, ⟨0xff0e, 0xff0e, 1, 0⟩, ⟨0xff1a, 0xff1a, 1, 0⟩,
  ⟨0xff3e, 0xff40, 2, 0⟩, ⟨0xff70, 0xff70, 1, 0⟩, ⟨0xff9e, 0xff9f, 1, 0⟩, ⟨0xffe3, 0xffe3, 1, 0⟩,
  ⟨0xfff9, 0xfffb, 1, 0⟩, ⟨0x101fd, 0x101fd, 1, 0⟩, ⟨0x102e0, 0x102e0, 1, 0⟩,
  ⟨0x10376, 0x1037a, 1, 0⟩, ⟨0x10780, 0x10785, 1, 0⟩, ⟨0x10787, 0x107b0, 1, 0⟩,
  ⟨0x107b2, 0x107ba, 1, 0⟩, ⟨0x10a01, 0x10a03, 1, 0⟩, ⟨0x10a05, 0x10a06, 1, 0⟩,
  ⟨0x10a0c, 0x10a0f, 1, 0⟩, ⟨0x10a38, 0x10a3a, 1, 0⟩, ⟨0x10a3f, 0x10a3f, 1, 0⟩,
  ⟨0x10ae5, 0x10ae6, 1, 0⟩, ⟨0x10d24, 0x10d27, 1, 0⟩, ⟨0x10d4e, 0x10d4e, 1, 0⟩,
  ⟨0x10d69, 0x10d6d, 1, 0⟩, ⟨0x10d6f, 0x10d6f, 1, 0⟩, ⟨0x10eab, 0x10eac, 1, 0⟩,
  ⟨0x10ec5, 0x10ec5, 1, 0⟩, ⟨0x10efa, 0x10eff, 1, 0⟩, ⟨0x10f46, 0x10f50, 1, 0⟩,
  ⟨0x10f82, 0x10f85, 1, 0⟩, ⟨0x11001, 0x11001, 1, 0⟩, ⟨0x11038, 0x11046, 1, 0⟩,
  ⟨0x11070, 0x11070, 1, 0⟩, ⟨0x11073, 0x11074, 1, 0⟩, ⟨0x1107f, 0x11081, 1, 0⟩,
  ⟨0x110b3, 0x110b6, 1, 0⟩, ⟨0x110b9, 0x110ba, 1, 0⟩, ⟨0x110bd, 0x110bd, 1, 0⟩,
  ⟨0x110c2, 0x110c2, 1, 0⟩, ⟨0x110cd, 0x110cd, 1, 0⟩, ⟨0x11100, 0x11102, 1, 0⟩,
  ⟨0x11127, 0x1112b, 1, 0⟩, ⟨0x1112d, 0x11134, 1, 0⟩, ⟨0x11173, 0x11173, 1, 0⟩,
  ⟨0x11180, 0x11181, 1, 0⟩, ⟨0x111b6, 0x111be, 1, 0⟩, ⟨0x111c9, 0x111cc, 1, 0⟩,
  ⟨0x111cf, 0x111cf, 1, 0⟩, ⟨0x1122f, 0x11231, 1, 0⟩, ⟨0x11234, 0x11234, 1, 0⟩,
  ⟨0x11236, 0x11237, 1, 0⟩, ⟨0x1123e, 0x1123e, 1, 0⟩, ⟨0x11241, 0x11241, 1, 0⟩,
  ⟨0x112df, 0x112df, 1, 0⟩, ⟨0x112e3, 0x112ea, 1, 0⟩, ⟨0x11300, 0x11301, 1, 0⟩,
  ⟨0x1133b, 0x1133c, 1, 0⟩, ⟨0x11340, 0x11340, 1, 0⟩, ⟨0x11366, 0x1136c, 1, 0⟩,
  ⟨0x11370, 0x11374, 1, 0⟩, ⟨0x113bb, 0x113c0, 1, 0⟩, ⟨0x113ce, 0x113d2, 2, 0⟩,
  ⟨0x113e1, 0x113e2, 1, 0⟩, ⟨0x11438, 0x1143f, 1, 0⟩, ⟨0x11442, 0x11444, 1, 0⟩,
  ⟨0x11446, 0x11446, 1, 0⟩, ⟨0x1145e, 0x1145e, 1, 0⟩, ⟨0x114b3, 0x114b8, 1, 0⟩,
  ⟨0x114ba, 0x114ba, 1, 0⟩, ⟨0x114bf, 0x114c0, 1, 0⟩, ⟨0x114c2, 0x114c3, 1, 0⟩,
  ⟨0x115b2, 0x115b5, 1, 0⟩, ⟨0x115bc, 0x115bd, 1, 0⟩, ⟨0x115bf, 0x115c0, 1, 0⟩,
  ⟨0x115dc, 0x115dd, 1, 0⟩, ⟨0x11633, 0x1163a, 1, 0⟩, ⟨0x1163d, 0x1163d, 1, 0⟩,
  ⟨0x1163f, 0x11640, 1, 0⟩, ⟨0x116ab, 0x116ad, 2, 0⟩, ⟨0x116b0, 0x116b5, 1, 0⟩,
  ⟨0x116b7, 0x116b7, 1, 0⟩, ⟨0x1171d, 0x1171f, 2, 0⟩, ⟨0x11722, 0x11725, 1, 0⟩,
  ⟨0x11727, 0x1172b, 1, 0⟩, ⟨0x1182f, 0x11837, 1, 0⟩, ⟨0x11839, 0x1183a, 1, 0⟩,
  ⟨0x1193b, 0x1193c, 1, 0⟩, ⟨0x1193e, 0x1193e, 1, 0⟩, ⟨0x11943, 0x11943, 1, 0⟩,
  ⟨0x119d4, 0x119d7, 1, 0⟩, ⟨0x119da, 0x119db, 1, 0⟩, ⟨0x119e0, 0x119e0, 1, 0⟩,
  ⟨0x11a01, 0x11a0a, 1, 0⟩, ⟨0x11a33, 0x11a38, 1, 0⟩, ⟨0x11a3b, 0x11a3e, 1, 0⟩,
  ⟨0x11a47, 0x11a47, 1, 0⟩, ⟨0x11a51, 0x11a56, 1, 0⟩, ⟨0x11a59, 0x11a5b, 1, 0⟩,
  ⟨0x11a8a, 0x11a96, 1, 0⟩, ⟨0x11a98, 0x11a99, 1, 0⟩, ⟨0x11b60, 0x11b60, 1, 0⟩,
  ⟨0x11b62, 0x11b64, 1, 0⟩, ⟨0x11b66, 0x11b66, 1, 0⟩, ⟨0x11c30, 0x11c36, 1, 0⟩,
  ⟨0x11c38, 0x11c3d, 1, 0⟩, ⟨0x11c3f, 0x11c3f, 1, 0⟩, ⟨0x11c92, 0x11ca7, 1, 0⟩,
  ⟨0x11caa, 0x11cb0, 1, 0⟩, ⟨0x11cb2, 0x11cb3, 1, 0⟩, ⟨0x11cb5, 0x11cb6, 1, 0⟩,
  ⟨0x11d31, 0x11d36, 1, 0⟩, ⟨0x11d3a, 0x11d3a, 1, 0⟩, ⟨0x11d3c, 0x11d3d, 1, 0⟩,
  ⟨0x11d3f, 0x11d45, 1, 0⟩, ⟨0x11d47, 0x11d47, 1, 0⟩, ⟨0x11d90, 0x11d91, 1, 0⟩,
  ⟨0x11d95, 0x11d97, 2, 0⟩, ⟨0x11dd9, 0x11dd9, 1, 0⟩, ⟨0x11ef3, 0x11ef4, 1, 0⟩,
  ⟨0x11f00, 0x11f01, 1, 0⟩, ⟨0x11f36, 0x11f3a, 1, 0⟩, ⟨0x11f40, 0x11f42, 2, 0⟩,
  ⟨0x11f5a, 0x11f5a, 1, 0⟩, ⟨0x13430, 0x13440, 1, 0⟩, ⟨0x13447, 0x13455, 1, 0⟩,
  ⟨0x1611e, 0x16129, 1, 0⟩, ⟨0x1612d, 0x1612f, 1, 0⟩, ⟨0x16af0, 0x16af4, 1, 0⟩,
  ⟨0x16b30, 0x16b36, 1, 0⟩, ⟨0x16b40, 0x16b43, 1, 0⟩, ⟨0x16d40, 0x16d42, 1, 0⟩,
  ⟨0x16d6b, 0x16d6c, 1, 0⟩, ⟨0x16f4f, 0x16f4f, 1, 0⟩, ⟨0x16f8f, 0x16f9f, 1, 0⟩,
  ⟨0x16fe0, 0x16fe1, 1, 0⟩, ⟨0x16fe3, 0x16fe4, 1, 0⟩, ⟨0x16ff2, 0x16ff3, 1, 0⟩,
  ⟨0x1aff0, 0x1aff3, 1, 0⟩, ⟨0x1aff5, 0x1affb, 1, 0⟩, ⟨0x1affd, 0x1affe, 1, 0⟩,
  ⟨0x1bc9d, 0x1bc9e, 1, 0⟩, ⟨0x1bca0, 0x1bca3, 1, 0⟩, ⟨0x1cf00, 0x1cf2d, 1, 0⟩,
  ⟨0x1cf30, 0x1cf46, 1, 0⟩, ⟨0x1d167, 0x1d169, 1, 0⟩, ⟨0x1d173, 0x1d182, 1, 0⟩,
  ⟨0x1d185, 0x1d18b, 1, 0⟩, ⟨0x1d1aa, 0x1d1ad, 1, 0⟩, ⟨0x1d242, 0x1d244, 1, 0⟩,
  ⟨0x1da00, 0x1da36, 1, 0⟩, ⟨0x1da3b, 0x1da6c, 1, 0⟩, ⟨0x1da75, 0x1da75, 1, 0⟩,
  ⟨0x1da84, 0x1da84, 1, 0⟩, ⟨0x1da9b, 0x1da9f, 1, 0⟩, ⟨0x1daa1, 0x1daaf, 1, 0⟩,
  ⟨0x1e000, 0x1e006, 1, 0⟩, ⟨0x1e008, 0x1e018, 1, 0⟩, ⟨0x1e01b, 0x1e021, 1, 0⟩,
  ⟨0x1e023, 0x1e024, 1, 0⟩, ⟨0x1e026, 0x1e02a, 1, 0⟩, ⟨0x1e030, 0x1e06d, 1, 0⟩,
  ⟨0x1e08f, 0x1e08f, 1, 0⟩, ⟨0x1e130, 0x1e13d, 1, 0⟩, ⟨0x1e2ae, 0x1e2ae, 1, 0⟩,
  ⟨0x1e2ec, 0x1e2ef, 1, 0⟩, ⟨0x1e4eb, 0x1e4ef, 1, 0⟩, ⟨0x1e5ee, 0x1e5ef, 1, 0⟩,
  ⟨0x1e6e3, 0x1e6e3, 1, 0⟩, ⟨0x1e6e6, 0x1e6e6, 1, 0⟩, ⟨0x1e6ee, 0x1e6ef, 1, 0⟩,
  ⟨0x1e6f5, 0x1e6f5, 1, 0⟩, ⟨0x1e6ff, 0x1e6ff, 1, 0⟩, ⟨0x1e8d0, 0x1e8d6, 1, 0⟩,
  ⟨0x1e944, 0x1e94b, 1, 0⟩, ⟨0x1f3fb, 0x1f3ff, 1, 0⟩, ⟨0xe0001, 0xe0001, 1, 0⟩,
  ⟨0xe0020, 0xe007f, 1, 0⟩, ⟨0xe0100, 0xe01ef, 1, 0⟩]

def isCased (c : Char) : Bool := casedRuns.any (·.covers c.toNat)

def isCaseIgnorable (c : Char) : Bool := ignorableRuns.any (·.covers c.toNat)

/-- Whether the first character that is not case-ignorable is cased. -/
def meetsCased (cs : List Char) : Bool :=
  match cs.dropWhile isCaseIgnorable with
  | c :: _ => isCased c
  | [] => false

/-- The lower case of the letters that follow `before`, which is in reverse order. -/
def lowerAfter (before : List Char) : List Char → List Char
  | [] => []
  | c :: cs =>
    let here := if c = 'Σ' then [if meetsCased before && !meetsCased cs then 'ς' else 'σ']
      else lowerChar c
    here ++ lowerAfter (c :: before) cs

/-- The lower case of a text. -/
def lowercase (s : String) : String := .ofList (lowerAfter [] s.toList)

end SqlTree.Text
