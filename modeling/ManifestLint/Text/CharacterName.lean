/-
ManifestLint.Text.CharacterName — looking a code point up by its name.

The table holds names of the Unicode Character Database 14.0, the aliases of
control codes included, for the blocks that manifests draw on: Basic Latin,
Latin-1, Latin Extended-A, Greek and Coptic, the general punctuation, the
currency signs and a few other signs. A name is matched whole and without regard to
the case of its ASCII letters.
-/
import ManifestLint.Text

namespace ManifestLint.Text

/-- Code points with their names, in rising order. -/
def characterNames : List (CodePoint × String) := [
  (0x0, "NUL"), (0x0, "NULL"), (0x1, "SOH"), (0x1, "START OF HEADING"), (0x2, "START OF TEXT"),
  (0x2, "STX"), (0x3, "END OF TEXT"), (0x3, "ETX"), (0x4, "END OF TRANSMISSION"), (0x4, "EOT"),
  (0x5, "ENQ"), (0x5, "ENQUIRY"), (0x6, "ACK"), (0x6, "ACKNOWLEDGE"), (0x7, "ALERT"), (0x7, "BEL"),
  (0x8, "BACKSPACE"), (0x8, "BS"), (0x9, "CHARACTER TABULATION"), (0x9, "HORIZONTAL TABULATION"),
  (0x9, "HT"), (0x9, "TAB"), (0xA, "END OF LINE"), (0xA, "EOL"), (0xA, "LF"), (0xA, "LINE FEED"),
  (0xA, "NEW LINE"), (0xA, "NL"), (0xB, "LINE TABULATION"), (0xB, "VERTICAL TABULATION"),
  (0xB, "VT"), (0xC, "FF"), (0xC, "FORM FEED"), (0xD, "CARRIAGE RETURN"), (0xD, "CR"),
  (0xE, "LOCKING-SHIFT ONE"), (0xE, "SHIFT OUT"), (0xE, "SO"), (0xF, "LOCKING-SHIFT ZERO"),
  (0xF, "SHIFT IN"), (0xF, "SI"), (0x10, "DATA LINK ESCAPE"), (0x10, "DLE"), (0x11, "DC1"),
  (0x11, "DEVICE CONTROL ONE"), (0x12, "DC2"), (0x12, "DEVICE CONTROL TWO"), (0x13, "DC3"),
  (0x13, "DEVICE CONTROL THREE"), (0x14, "DC4"), (0x14, "DEVICE CONTROL FOUR"), (0x15, "NAK"),
  (0x15, "NEGATIVE ACKNOWLEDGE"), (0x16, "SYN"), (0x16, "SYNCHRONOUS IDLE"),
  (0x17, "END OF TRANSMISSION BLOCK"), (0x17, "ETB"), (0x18, "CAN"), (0x18, "CANCEL"),
  (0x19, "END OF MEDIUM"), (0x19, "EOM"), (0x1A, "SUB"), (0x1A, "SUBSTITUTE"), (0x1B, "ESC"),
  (0x1B, "ESCAPE"), (0x1C, "FILE SEPARATOR"), (0x1C, "FS"), (0x1C, "INFORMATION SEPARATOR FOUR"),
  (0x1D, "GROUP SEPARATOR"), (0x1D, "GS"), (0x1D, "INFORMATION SEPARATOR THREE"),
  (0x1E, "INFORMATION SEPARATOR TWO"), (0x1E, "RECORD SEPARATOR"), (0x1E, "RS"),
  (0x1F, "INFORMATION SEPARATOR ONE"), (0x1F, "UNIT SEPARATOR"), (0x1F, "US"), (0x20, "SP"),
  (0x20, "SPACE"), (0x21, "EXCLAMATION MARK"), (0x22, "QUOTATION MARK"), (0x23, "NUMBER SIGN"),
  (0x24, "DOLLAR SIGN"), (0x25, "PERCENT SIGN"), (0x26, "AMPERSAND"), (0x27, "APOSTROPHE"),
  (0x28, "LEFT PARENTHESIS"), (0x29, "RIGHT PARENTHESIS"), (0x2A, "ASTERISK"), (0x2B, "PLUS SIGN"),
  (0x2C, "COMMA"), (0x2D, "HYPHEN-MINUS"), (0x2E, "FULL STOP"), (0x2F, "SOLIDUS"),
  (0x30, "DIGIT ZERO"), (0x31, "DIGIT ONE"), (0x32, "DIGIT TWO"), (0x33, "DIGIT THREE"),
  (0x34, "DIGIT FOUR"), (0x35, "DIGIT FIVE"), (0x36, "DIGIT SIX"), (0x37, "DIGIT SEVEN"),
  (0x38, "DIGIT EIGHT"), (0x39, "DIGIT NINE"), (0x3A, "COLON"), (0x3B, "SEMICOLON"),
  (0x3C, "LESS-THAN SIGN"), (0x3D, "EQUALS SIGN"), (0x3E, "GREATER-THAN SIGN"),
  (0x3F, "QUESTION MARK"), (0x40, "COMMERCIAL AT"), (0x41, "LATIN CAPITAL LETTER A"),
  (0x42, "LATIN CAPITAL LETTER B"), (0x43, "LATIN CAPITAL LETTER C"),
  (0x44, "LATIN CAPITAL LETTER D"), (0x45, "LATIN CAPITAL LETTER E"),
  (0x46, "LATIN CAPITAL LETTER F"), (0x47, "LATIN CAPITAL LETTER G"),
  (0x48, "LATIN CAPITAL LETTER H"), (0x49, "LATIN CAPITAL LETTER I"),
  (0x4A, "LATIN CAPITAL LETTER J"), (0x4B, "LATIN CAPITAL LETTER K"),
  (0x4C, "LATIN CAPITAL LETTER L"), (0x4D, "LATIN CAPITAL LETTER M"),
  (0x4E, "LATIN CAPITAL LETTER N"), (0x4F, "LATIN CAPITAL LETTER O"),
  (0x50, "LATIN CAPITAL LETTER P"), (0x51, "LATIN CAPITAL LETTER Q"),
  (0x52, "LATIN CAPITAL LETTER R"), (0x53, "LATIN CAPITAL LETTER S"),
  (0x54, "LATIN CAPITAL LETTER T"), (0x55, "LATIN CAPITAL LETTER U"),
  (0x56, "LATIN CAPITAL LETTER V"), (0x57, "LATIN CAPITAL LETTER W"),
  (0x58, "LATIN CAPITAL LETTER X"), (0x59, "LATIN CAPITAL LETTER Y"),
  (0x5A, "LATIN CAPITAL LETTER Z"), (0x5B, "LEFT SQUARE BRACKET"), (0x5C, "REVERSE SOLIDUS"),
  (0x5D, "RIGHT SQUARE BRACKET"), (0x5E, "CIRCUMFLEX ACCENT"), (0x5F, "LOW LINE"),
  (0x60, "GRAVE ACCENT"), (0x61, "LATIN SMALL LETTER A"), (0x62, "LATIN SMALL LETTER B"),
  (0x63, "LATIN SMALL LETTER C"), (0x64, "LATIN SMALL LETTER D"), (0x65, "LATIN SMALL LETTER E"),
  (0x66, "LATIN SMALL LETTER F"), (0x67, "LATIN SMALL LETTER G"), (0x68, "LATIN SMALL LETTER H"),
  (0x69, "LATIN SMALL LETTER I"), (0x6A, "LATIN SMALL LETTER J"), (0x6B, "LATIN SMALL LETTER K"),
  (0x6C, "LATIN SMALL LETTER L"), (0x6D, "LATIN SMALL LETTER M"), (0x6E, "LATIN SMALL LETTER N"),
  (0x6F, "LATIN SMALL LETTER O"), (0x70, "LATIN SMALL LETTER P"), (0x71, "LATIN SMALL LETTER Q"),
  (0x72, "LATIN SMALL LETTER R"), (0x73, "LATIN SMALL LETTER S"), (0x74, "LATIN SMALL LETTER T"),
  (0x75, "LATIN SMALL LETTER U"), (0x76, "LATIN SMALL LETTER V"), (0x77, "LATIN SMALL LETTER W"),
  (0x78, "LATIN SMALL LETTER X"), (0x79, "LATIN SMALL LETTER Y"), (0x7A, "LATIN SMALL LETTER Z"),
  (0x7B, "LEFT CURLY BRACKET"), (0x7C, "VERTICAL LINE"), (0x7D, "RIGHT CURLY BRACKET"),
  (0x7E, "TILDE"), (0x7F, "DEL"), (0x7F, "DELETE"), (0x80, "PAD"), (0x80, "PADDING CHARACTER"),
  (0x81, "HIGH OCTET PRESET"), (0x81, "HOP"), (0x82, "BPH"), (0x82, "BREAK PERMITTED HERE"),
  (0x83, "NBH"), (0x83, "NO BREAK HERE"), (0x84, "IND"), (0x84, "INDEX"), (0x85, "NEL"),
  (0x85, "NEXT LINE"), (0x86, "SSA"), (0x86, "START OF SELECTED AREA"),
  (0x87, "END OF SELECTED AREA"), (0x87, "ESA"), (0x88, "CHARACTER TABULATION SET"),
  (0x88, "HORIZONTAL TABULATION SET"), (0x88, "HTS"),
  (0x89, "CHARACTER TABULATION WITH JUSTIFICATION"),
  (0x89, "HORIZONTAL TABULATION WITH JUSTIFICATION"), (0x89, "HTJ"), (0x8A, "LINE TABULATION SET"),
  (0x8A, "VERTICAL TABULATION SET"), (0x8A, "VTS"), (0x8B, "PARTIAL LINE DOWN"),
  (0x8B, "PARTIAL LINE FORWARD"), (0x8B, "PLD"), (0x8C, "PARTIAL LINE BACKWARD"),
  (0x8C, "PARTIAL LINE UP"), (0x8C, "PLU"), (0x8D, "REVERSE INDEX"), (0x8D, "REVERSE LINE FEED"),
  (0x8D, "RI"), (0x8E, "SINGLE SHIFT TWO"), (0x8E, "SINGLE-SHIFT-2"), (0x8E, "SS2"),
  (0x8F, "SINGLE SHIFT THREE"), (0x8F, "SINGLE-SHIFT-3"), (0x8F, "SS3"), (0x90, "DCS"),
  (0x90, "DEVICE CONTROL STRING"), (0x91, "PRIVATE USE ONE"), (0x91, "PRIVATE USE-1"),
  (0x91, "PU1"), (0x92, "PRIVATE USE TWO"), (0x92, "PRIVATE USE-2"), (0x92, "PU2"),
  (0x93, "SET TRANSMIT STATE"), (0x93, "STS"), (0x94, "CANCEL CHARACTER"), (0x94, "CCH"),
  (0x95, "MESSAGE WAITING"), (0x95, "MW"), (0x96, "SPA"), (0x96, "START OF GUARDED AREA"),
  (0x96, "START OF PROTECTED AREA"), (0x97, "END OF GUARDED AREA"), (0x97, "END OF PROTECTED AREA"),
  (0x97, "EPA"), (0x98, "SOS"), (0x98, "START OF STRING"), (0x99, "SGC"),
  (0x99, "SINGLE GRAPHIC CHARACTER INTRODUCER"), (0x9A, "SCI"),
  (0x9A, "SINGLE CHARACTER INTRODUCER"), (0x9B, "CONTROL SEQUENCE INTRODUCER"), (0x9B, "CSI"),
  (0x9C, "ST"), (0x9C, "STRING TERMINATOR"), (0x9D, "OPERATING SYSTEM COMMAND"), (0x9D, "OSC"),
  (0x9E, "PM"), (0x9E, "PRIVACY MESSAGE"), (0x9F, "APC"), (0x9F, "APPLICATION PROGRAM COMMAND"),
  (0xA0, "NBSP"), (0xA0, "NO-BREAK SPACE"), (0xA1, "INVERTED EXCLAMATION MARK"),
  (0xA2, "CENT SIGN"), (0xA3, "POUND SIGN"), (0xA4, "CURRENCY SIGN"), (0xA5, "YEN SIGN"),
  (0xA6, "BROKEN BAR"), (0xA7, "SECTION SIGN"), (0xA8, "DIAERESIS"), (0xA9, "COPYRIGHT SIGN"),
  (0xAA, "FEMININE ORDINAL INDICATOR"), (0xAB, "LEFT-POINTING DOUBLE ANGLE QUOTATION MARK"),
  (0xAC, "NOT SIGN"), (0xAD, "SHY"), (0xAD, "SOFT HYPHEN"), (0xAE, "REGISTERED SIGN"),
  (0xAF, "MACRON"), (0xB0, "DEGREE SIGN"), (0xB1, "PLUS-MINUS SIGN"), (0xB2, "SUPERSCRIPT TWO"),
  (0xB3, "SUPERSCRIPT THREE"), (0xB4, "ACUTE ACCENT"), (0xB5, "MICRO SIGN"), (0xB6, "PILCROW SIGN"),
  (0xB7, "MIDDLE DOT"), (0xB8, "CEDILLA"), (0xB9, "SUPERSCRIPT ONE"),
  (0xBA, "MASCULINE ORDINAL INDICATOR"), (0xBB, "RIGHT-POINTING DOUBLE ANGLE QUOTATION MARK"),
  (0xBC, "VULGAR FRACTION ONE QUARTER"), (0xBD, "VULGAR FRACTION ONE HALF"),
  (0xBE, "VULGAR FRACTION THREE QUARTERS"), (0xBF, "INVERTED QUESTION MARK"),
  (0xC0, "LATIN CAPITAL LETTER A WITH GRAVE"), (0xC1, "LATIN CAPITAL LETTER A WITH ACUTE"),
  (0xC2, "LATIN CAPITAL LETTER A WITH CIRCUMFLEX"), (0xC3, "LATIN CAPITAL LETTER A WITH TILDE"),
  (0xC4, "LATIN CAPITAL LETTER A WITH DIAERESIS"), (0xC5, "LATIN CAPITAL LETTER A WITH RING ABOVE"),
  (0xC6, "LATIN CAPITAL LETTER AE"), (0xC7, "LATIN CAPITAL LETTER C WITH CEDILLA"),
  (0xC8, "LATIN CAPITAL LETTER E WITH GRAVE"), (0xC9, "LATIN CAPITAL LETTER E WITH ACUTE"),
  (0xCA, "LATIN CAPITAL LETTER E WITH CIRCUMFLEX"), (0xCB, "LATIN CAPITAL LETTER E WITH DIAERESIS"),
  (0xCC, "LATIN CAPITAL LETTER I WITH GRAVE"), (0xCD, "LATIN CAPITAL LETTER I WITH ACUTE"),
  (0xCE, "LATIN CAPITAL LETTER I WITH CIRCUMFLEX"), (0xCF, "LATIN CAPITAL LETTER I WITH DIAERESIS"),
  (0xD0, "LATIN CAPITAL LETTER ETH"), (0xD1, "LATIN CAPITAL LETTER N WITH TILDE"),
  (0xD2, "LATIN CAPITAL LETTER O WITH GRAVE"), (0xD3, "LATIN CAPITAL LETTER O WITH ACUTE"),
  (0xD4, "LATIN CAPITAL LETTER O WITH CIRCUMFLEX"), (0xD5, "LATIN CAPITAL LETTER O WITH TILDE"),
  (0xD6, "LATIN CAPITAL LETTER O WITH DIAERESIS"), (0xD7, "MULTIPLICATION SIGN"),
  (0xD8, "LATIN CAPITAL LETTER O WITH STROKE"), (0xD9, "LATIN CAPITAL LETTER U WITH GRAVE"),
  (0xDA, "LATIN CAPITAL LETTER U WITH ACUTE"), (0xDB, "LATIN CAPITAL LETTER U WITH CIRCUMFLEX"),
  (0xDC, "LATIN CAPITAL LETTER U WITH DIAERESIS"), (0xDD, "LATIN CAPITAL LETTER Y WITH ACUTE"),
  (0xDE, "LATIN CAPITAL LETTER THORN"), (0xDF, "LATIN SMALL LETTER SHARP S"),
  (0xE0, "LATIN SMALL LETTER A WITH GRAVE"), (0xE1, "LATIN SMALL LETTER A WITH ACUTE"),
  (0xE2, "LATIN SMALL LETTER A WITH CIRCUMFLEX"), (0xE3, "LATIN SMALL LETTER A WITH TILDE"),
  (0xE4, "LATIN SMALL LETTER A WITH DIAERESIS"), (0xE5, "LATIN SMALL LETTER A WITH RING ABOVE"),
  (0xE6, "LATIN SMALL LETTER AE"), (0xE7, "LATIN SMALL LETTER C WITH CEDILLA"),
  (0xE8, "LATIN SMALL LETTER E WITH GRAVE"), (0xE9, "LATIN SMALL LETTER E WITH ACUTE"),
  (0xEA, "LATIN SMALL LETTER E WITH CIRCUMFLEX"), (0xEB, "LATIN SMALL LETTER E WITH DIAERESIS"),
  (0xEC, "LATIN SMALL LETTER I WITH GRAVE"), (0xED, "LATIN SMALL LETTER I WITH ACUTE"),
  (0xEE, "LATIN SMALL LETTER I WITH CIRCUMFLEX"), (0xEF, "LATIN SMALL LETTER I WITH DIAERESIS"),
  (0xF0, "LATIN SMALL LETTER ETH"), (0xF1, "LATIN SMALL LETTER N WITH TILDE"),
  (0xF2, "LATIN SMALL LETTER O WITH GRAVE"), (0xF3, "LATIN SMALL LETTER O WITH ACUTE"),
  (0xF4, "LATIN SMALL LETTER O WITH CIRCUMFLEX"), (0xF5, "LATIN SMALL LETTER O WITH TILDE"),
  (0xF6, "LATIN SMALL LETTER O WITH DIAERESIS"), (0xF7, "DIVISION SIGN"),
  (0xF8, "LATIN SMALL LETTER O WITH STROKE"), (0xF9, "LATIN SMALL LETTER U WITH GRAVE"),
  (0xFA, "LATIN SMALL LETTER U WITH ACUTE"), (0xFB, "LATIN SMALL LETTER U WITH CIRCUMFLEX"),
  (0xFC, "LATIN SMALL LETTER U WITH DIAERESIS"), (0xFD, "LATIN SMALL LETTER Y WITH ACUTE"),
  (0xFE, "LATIN SMALL LETTER THORN"), (0xFF, "LATIN SMALL LETTER Y WITH DIAERESIS"),
  (0x100, "LATIN CAPITAL LETTER A WITH MACRON"), (0x101, "LATIN SMALL LETTER A WITH MACRON"),
  (0x102, "LATIN CAPITAL LETTER A WITH BREVE"), (0x103, "LATIN SMALL LETTER A WITH BREVE"),
  (0x104, "LATIN CAPITAL LETTER A WITH OGONEK"), (0x105, "LATIN SMALL LETTER A WITH OGONEK"),
  (0x106, "LATIN CAPITAL LETTER C WITH ACUTE"), (0x107, "LATIN SMALL LETTER C WITH ACUTE"),
  (0x108, "LATIN CAPITAL LETTER C WITH CIRCUMFLEX"),
  (0x109, "LATIN SMALL LETTER C WITH CIRCUMFLEX"), (0x10A, "LATIN CAPITAL LETTER C WITH DOT ABOVE"),
  (0x10B, "LATIN SMALL LETTER C WITH DOT ABOVE"), (0x10C, "LATIN CAPITAL LETTER C WITH CARON"),
  (0x10D, "LATIN SMALL LETTER C WITH CARON"), (0x10E, "LATIN CAPITAL LETTER D WITH CARON"),
  (0x10F, "LATIN SMALL LETTER D WITH CARON"), (0x110, "LATIN CAPITAL LETTER D WITH STROKE"),
  (0x111, "LATIN SMALL LETTER D WITH STROKE"), (0x112, "LATIN CAPITAL LETTER E WITH MACRON"),
  (0x113, "LATIN SMALL LETTER E WITH MACRON"), (0x114, "LATIN CAPITAL LETTER E WITH BREVE"),
  (0x115, "LATIN SMALL LETTER E WITH BREVE"), (0x116, "LATIN CAPITAL LETTER E WITH DOT ABOVE"),
  (0x117, "LATIN SMALL LETTER E WITH DOT ABOVE"), (0x118, "LATIN CAPITAL LETTER E WITH OGONEK"),
  (0x119, "LATIN SMALL LETTER E WITH OGONEK"), (0x11A, "LATIN CAPITAL LETTER E WITH CARON"),
  (0x11B, "LATIN SMALL LETTER E WITH CARON"), (0x11C, "LATIN CAPITAL LETTER G WITH CIRCUMFLEX"),
  (0x11D, "LATIN SMALL LETTER G WITH CIRCUMFLEX"), (0x11E, "LATIN CAPITAL LETTER G WITH BREVE"),
  (0x11F, "LATIN SMALL LETTER G WITH BREVE"), (0x120, "LATIN CAPITAL LETTER G WITH DOT ABOVE"),
  (0x121, "LATIN SMALL LETTER G WITH DOT ABOVE"), (0x122, "LATIN CAPITAL LETTER G WITH CEDILLA"),
  (0x123, "LATIN SMALL LETTER G WITH CEDILLA"), (0x124, "LATIN CAPITAL LETTER H WITH CIRCUMFLEX"),
  (0x125, "LATIN SMALL LETTER H WITH CIRCUMFLEX"), (0x126, "LATIN CAPITAL LETTER H WITH STROKE"),
  (0x127, "LATIN SMALL LETTER H WITH STROKE"), (0x128, "LATIN CAPITAL LETTER I WITH TILDE"),
  (0x129, "LATIN SMALL LETTER I WITH TILDE"), (0x12A, "LATIN CAPITAL LETTER I WITH MACRON"),
  (0x12B, "LATIN SMALL LETTER I WITH MACRON"), (0x12C, "LATIN CAPITAL LETTER I WITH BREVE"),
  (0x12D, "LATIN SMALL LETTER I WITH BREVE"), (0x12E, "LATIN CAPITAL LETTER I WITH OGONEK"),
  (0x12F, "LATIN SMALL LETTER I WITH OGONEK"), (0x130, "LATIN CAPITAL LETTER I WITH DOT ABOVE"),
  (0x131, "LATIN SMALL LETTER DOTLESS I"), (0x132, "LATIN CAPITAL LIGATURE IJ"),
  (0x133, "LATIN SMALL LIGATURE IJ"), (0x134, "LATIN CAPITAL LETTER J WITH CIRCUMFLEX"),
  (0x135, "LATIN SMALL LETTER J WITH CIRCUMFLEX"), (0x136, "LATIN CAPITAL LETTER K WITH CEDILLA"),
  (0x137, "LATIN SMALL LETTER K WITH CEDILLA"), (0x138, "LATIN SMALL LETTER KRA"),
  (0x139, "LATIN CAPITAL LETTER L WITH ACUTE"), (0x13A, "LATIN SMALL LETTER L WITH ACUTE"),
  (0x13B, "LATIN CAPITAL LETTER L WITH CEDILLA"), (0x13C, "LATIN SMALL LETTER L WITH CEDILLA"),
  (0x13D, "LATIN CAPITAL LETTER L WITH CARON"), (0x13E, "LATIN SMALL LETTER L WITH CARON"),
  (0x13F, "LATIN CAPITAL LETTER L WITH MIDDLE DOT"),
  (0x140, "LATIN SMALL LETTER L WITH MIDDLE DOT"), (0x141, "LATIN CAPITAL LETTER L WITH STROKE"),
  (0x142, "LATIN SMALL LETTER L WITH STROKE"), (0x143, "LATIN CAPITAL LETTER N WITH ACUTE"),
  (0x144, "LATIN SMALL LETTER N WITH ACUTE"), (0x145, "LATIN CAPITAL LETTER N WITH CEDILLA"),
  (0x146, "LATIN SMALL LETTER N WITH CEDILLA"), (0x147, "LATIN CAPITAL LETTER N WITH CARON"),
  (0x148, "LATIN SMALL LETTER N WITH CARON"),
  (0x149, "LATIN SMALL LETTER N PRECEDED BY APOSTROPHE"), (0x14A, "LATIN CAPITAL LETTER ENG"),
  (0x14B, "LATIN SMALL LETTER ENG"), (0x14C, "LATIN CAPITAL LETTER O WITH MACRON"),
  (0x14D, "LATIN SMALL LETTER O WITH MACRON"), (0x14E, "LATIN CAPITAL LETTER O WITH BREVE"),
  (0x14F, "LATIN SMALL LETTER O WITH BREVE"), (0x150, "LATIN CAPITAL LETTER O WITH DOUBLE ACUTE"),
  (0x151, "LATIN SMALL LETTER O WITH DOUBLE ACUTE"), (0x152, "LATIN CAPITAL LIGATURE OE"),
  (0x153, "LATIN SMALL LIGATURE OE"), (0x154, "LATIN CAPITAL LETTER R WITH ACUTE"),
  (0x155, "LATIN SMALL LETTER R WITH ACUTE"), (0x156, "LATIN CAPITAL LETTER R WITH CEDILLA"),
  (0x157, "LATIN SMALL LETTER R WITH CEDILLA"), (0x158, "LATIN CAPITAL LETTER R WITH CARON"),
  (0x159, "LATIN SMALL LETTER R WITH CARON"), (0x15A, "LATIN CAPITAL LETTER S WITH ACUTE"),
  (0x15B, "LATIN SMALL LETTER S WITH ACUTE"), (0x15C, "LATIN CAPITAL LETTER S WITH CIRCUMFLEX"),
  (0x15D, "LATIN SMALL LETTER S WITH CIRCUMFLEX"), (0x15E, "LATIN CAPITAL LETTER S WITH CEDILLA"),
  (0x15F, "LATIN SMALL LETTER S WITH CEDILLA"), (0x160, "LATIN CAPITAL LETTER S WITH CARON"),
  (0x161, "LATIN SMALL LETTER S WITH CARON"), (0x162, "LATIN CAPITAL LETTER T WITH CEDILLA"),
  (0x163, "LATIN SMALL LETTER T WITH CEDILLA"), (0x164, "LATIN CAPITAL LETTER T WITH CARON"),
  (0x165, "LATIN SMALL LETTER T WITH CARON"), (0x166, "LATIN CAPITAL LETTER T WITH STROKE"),
  (0x167, "LATIN SMALL LETTER T WITH STROKE"), (0x168, "LATIN CAPITAL LETTER U WITH TILDE"),
  (0x169, "LATIN SMALL LETTER U WITH TILDE"), (0x16A, "LATIN CAPITAL LETTER U WITH MACRON"),
  (0x16B, "LATIN SMALL LETTER U WITH MACRON"), (0x16C, "LATIN CAPITAL LETTER U WITH BREVE"),
  (0x16D, "LATIN SMALL LETTER U WITH BREVE"), (0x16E, "LATIN CAPITAL LETTER U WITH RING ABOVE"),
  (0x16F, "LATIN SMALL LETTER U WITH RING ABOVE"),
  (0x170, "LATIN CAPITAL LETTER U WITH DOUBLE ACUTE"),
  (0x171, "LATIN SMALL LETTER U WITH DOUBLE ACUTE"), (0x172, "LATIN CAPITAL LETTER U WITH OGONEK"),
  (0x173, "LATIN SMALL LETTER U WITH OGONEK"), (0x174, "LATIN CAPITAL LETTER W WITH CIRCUMFLEX"),
  (0x175, "LATIN SMALL LETTER W WITH CIRCUMFLEX"),
  (0x176, "LATIN CAPITAL LETTER Y WITH CIRCUMFLEX"),
  (0x177, "LATIN SMALL LETTER Y WITH CIRCUMFLEX"), (0x178, "LATIN CAPITAL LETTER Y WITH DIAERESIS"),
  (0x179, "LATIN CAPITAL LETTER Z WITH ACUTE"), (0x17A, "LATIN SMALL LETTER Z WITH ACUTE"),
  (0x17B, "LATIN CAPITAL LETTER Z WITH DOT ABOVE"), (0x17C, "LATIN SMALL LETTER Z WITH DOT ABOVE"),
  (0x17D, "LATIN CAPITAL LETTER Z WITH CARON"), (0x17E, "LATIN SMALL LETTER Z WITH CARON"),
  (0x17F, "LATIN SMALL LETTER LONG S"), (0x34F, "CGJ"), (0x370, "GREEK CAPITAL LETTER HETA"),
  (0x371, "GREEK SMALL LETTER HETA"), (0x372, "GREEK CAPITAL LETTER ARCHAIC SAMPI"),
  (0x373, "GREEK SMALL LETTER ARCHAIC SAMPI"), (0x374, "GREEK NUMERAL SIGN"),
  (0x375, "GREEK LOWER NUMERAL SIGN"), (0x376, "GREEK CAPITAL LETTER PAMPHYLIAN DIGAMMA"),
  (0x377, "GREEK SMALL LETTER PAMPHYLIAN DIGAMMA"), (0x37A, "GREEK YPOGEGRAMMENI"),
  (0x37B, "GREEK SMALL REVERSED LUNATE SIGMA SYMBOL"),
  (0x37C, "GREEK SMALL DOTTED LUNATE SIGMA SYMBOL"),
  (0x37D, "GREEK SMALL REVERSED DOTTED LUNATE SIGMA SYMBOL"), (0x37E, "GREEK QUESTION MARK"),
  (0x37F, "GREEK CAPITAL LETTER YOT"), (0x384, "GREEK TONOS"), (0x385, "GREEK DIALYTIKA TONOS"),
  (0x386, "GREEK CAPITAL LETTER ALPHA WITH TONOS"), (0x387, "GREEK ANO TELEIA"),
  (0x388, "GREEK CAPITAL LETTER EPSILON WITH TONOS"),
  (0x389, "GREEK CAPITAL LETTER ETA WITH TONOS"), (0x38A, "GREEK CAPITAL LETTER IOTA WITH TONOS"),
  (0x38C, "GREEK CAPITAL LETTER OMICRON WITH TONOS"),
  (0x38E, "GREEK CAPITAL LETTER UPSILON WITH TONOS"),
  (0x38F, "GREEK CAPITAL LETTER OMEGA WITH TONOS"),
  (0x390, "GREEK SMALL LETTER IOTA WITH DIALYTIKA AND TONOS"),
  (0x391, "GREEK CAPITAL LETTER ALPHA"), (0x392, "GREEK CAPITAL LETTER BETA"),
  (0x393, "GREEK CAPITAL LETTER GAMMA"), (0x394, "GREEK CAPITAL LETTER DELTA"),
  (0x395, "GREEK CAPITAL LETTER EPSILON"), (0x396, "GREEK CAPITAL LETTER ZETA"),
  (0x397, "GREEK CAPITAL LETTER ETA"), (0x398, "GREEK CAPITAL LETTER THETA"),
  (0x399, "GREEK CAPITAL LETTER IOTA"), (0x39A, "GREEK CAPITAL LETTER KAPPA"),
  (0x39B, "GREEK CAPITAL LETTER LAMDA"), (0x39C, "GREEK CAPITAL LETTER MU"),
  (0x39D, "GREEK CAPITAL LETTER NU"), (0x39E, "GREEK CAPITAL LETTER XI"),
  (0x39F, "GREEK CAPITAL LETTER OMICRON"), (0x3A0, "GREEK CAPITAL LETTER PI"),
  (0x3A1, "GREEK CAPITAL LETTER RHO"), (0x3A3, "GREEK CAPITAL LETTER SIGMA"),
  (0x3A4, "GREEK CAPITAL LETTER TAU"), (0x3A5, "GREEK CAPITAL LETTER UPSILON"),
  (0x3A6, "GREEK CAPITAL LETTER PHI"), (0x3A7, "GREEK CAPITAL LETTER CHI"),
  (0x3A8, "GREEK CAPITAL LETTER PSI"), (0x3A9, "GREEK CAPITAL LETTER OMEGA"),
  (0x3AA, "GREEK CAPITAL LETTER IOTA WITH DIALYTIKA"),
  (0x3AB, "GREEK CAPITAL LETTER UPSILON WITH DIALYTIKA"),
  (0x3AC, "GREEK SMALL LETTER ALPHA WITH TONOS"), (0x3AD, "GREEK SMALL LETTER EPSILON WITH TONOS"),
  (0x3AE, "GREEK SMALL LETTER ETA WITH TONOS"), (0x3AF, "GREEK SMALL LETTER IOTA WITH TONOS"),
  (0x3B0, "GREEK SMALL LETTER UPSILON WITH DIALYTIKA AND TONOS"),
  (0x3B1, "GREEK SMALL LETTER ALPHA"), (0x3B2, "GREEK SMALL LETTER BETA"),
  (0x3B3, "GREEK SMALL LETTER GAMMA"), (0x3B4, "GREEK SMALL LETTER DELTA"),
  (0x3B5, "GREEK SMALL LETTER EPSILON"), (0x3B6, "GREEK SMALL LETTER ZETA"),
  (0x3B7, "GREEK SMALL LETTER ETA"), (0x3B8, "GREEK SMALL LETTER THETA"),
  (0x3B9, "GREEK SMALL LETTER IOTA"), (0x3BA, "GREEK SMALL LETTER KAPPA"),
  (0x3BB, "GREEK SMALL LETTER LAMDA"), (0x3BC, "GREEK SMALL LETTER MU"),
  (0x3BD, "GREEK SMALL LETTER NU"), (0x3BE, "GREEK SMALL LETTER XI"),
  (0x3BF, "GREEK SMALL LETTER OMICRON"), (0x3C0, "GREEK SMALL LETTER PI"),
  (0x3C1, "GREEK SMALL LETTER RHO"), (0x3C2, "GREEK SMALL LETTER FINAL SIGMA"),
  (0x3C3, "GREEK SMALL LETTER SIGMA"), (0x3C4, "GREEK SMALL LETTER TAU"),
  (0x3C5, "GREEK SMALL LETTER UPSILON"), (0x3C6, "GREEK SMALL LETTER PHI"),
  (0x3C7, "GREEK SMALL LETTER CHI"), (0x3C8, "GREEK SMALL LETTER PSI"),
  (0x3C9, "GREEK SMALL LETTER OMEGA"), (0x3CA, "GREEK SMALL LETTER IOTA WITH DIALYTIKA"),
  (0x3CB, "GREEK SMALL LETTER UPSILON WITH DIALYTIKA"),
  (0x3CC, "GREEK SMALL LETTER OMICRON WITH TONOS"),
  (0x3CD, "GREEK SMALL LETTER UPSILON WITH TONOS"), (0x3CE, "GREEK SMALL LETTER OMEGA WITH TONOS"),
  (0x3CF, "GREEK CAPITAL KAI SYMBOL"), (0x3D0, "GREEK BETA SYMBOL"), (0x3D1, "GREEK THETA SYMBOL"),
  (0x3D2, "GREEK UPSILON WITH HOOK SYMBOL"), (0x3D3, "GREEK UPSILON WITH ACUTE AND HOOK SYMBOL"),
  (0x3D4, "GREEK UPSILON WITH DIAERESIS AND HOOK SYMBOL"), (0x3D5, "GREEK PHI SYMBOL"),
  (0x3D6, "GREEK PI SYMBOL"), (0x3D7, "GREEK KAI SYMBOL"), (0x3D8, "GREEK LETTER ARCHAIC KOPPA"),
  (0x3D9, "GREEK SMALL LETTER ARCHAIC KOPPA"), (0x3DA, "GREEK LETTER STIGMA"),
  (0x3DB, "GREEK SMALL LETTER STIGMA"), (0x3DC, "GREEK LETTER DIGAMMA"),
  (0x3DD, "GREEK SMALL LETTER DIGAMMA"), (0x3DE, "GREEK LETTER KOPPA"),
  (0x3DF, "GREEK SMALL LETTER KOPPA"), (0x3E0, "GREEK LETTER SAMPI"),
  (0x3E1, "GREEK SMALL LETTER SAMPI"), (0x3E2, "COPTIC CAPITAL LETTER SHEI"),
  (0x3E3, "COPTIC SMALL LETTER SHEI"), (0x3E4, "COPTIC CAPITAL LETTER FEI"),
  (0x3E5, "COPTIC SMALL LETTER FEI"), (0x3E6, "COPTIC CAPITAL LETTER KHEI"),
  (0x3E7, "COPTIC SMALL LETTER KHEI"), (0x3E8, "COPTIC CAPITAL LETTER HORI"),
  (0x3E9, "COPTIC SMALL LETTER HORI"), (0x3EA, "COPTIC CAPITAL LETTER GANGIA"),
  (0x3EB, "COPTIC SMALL LETTER GANGIA"), (0x3EC, "COPTIC CAPITAL LETTER SHIMA"),
  (0x3ED, "COPTIC SMALL LETTER SHIMA"), (0x3EE, "COPTIC CAPITAL LETTER DEI"),
  (0x3EF, "COPTIC SMALL LETTER DEI"), (0x3F0, "GREEK KAPPA SYMBOL"), (0x3F1, "GREEK RHO SYMBOL"),
  (0x3F2, "GREEK LUNATE SIGMA SYMBOL"), (0x3F3, "GREEK LETTER YOT"),
  (0x3F4, "GREEK CAPITAL THETA SYMBOL"), (0x3F5, "GREEK LUNATE EPSILON SYMBOL"),
  (0x3F6, "GREEK REVERSED LUNATE EPSILON SYMBOL"), (0x3F7, "GREEK CAPITAL LETTER SHO"),
  (0x3F8, "GREEK SMALL LETTER SHO"), (0x3F9, "GREEK CAPITAL LUNATE SIGMA SYMBOL"),
  (0x3FA, "GREEK CAPITAL LETTER SAN"), (0x3FB, "GREEK SMALL LETTER SAN"),
  (0x3FC, "GREEK RHO WITH STROKE SYMBOL"), (0x3FD, "GREEK CAPITAL REVERSED LUNATE SIGMA SYMBOL"),
  (0x3FE, "GREEK CAPITAL DOTTED LUNATE SIGMA SYMBOL"),
  (0x3FF, "GREEK CAPITAL REVERSED DOTTED LUNATE SIGMA SYMBOL"), (0x61C, "ALM"), (0x2000, "EN QUAD"),
  (0x2001, "EM QUAD"), (0x2002, "EN SPACE"), (0x2003, "EM SPACE"), (0x2004, "THREE-PER-EM SPACE"),
  (0x2005, "FOUR-PER-EM SPACE"), (0x2006, "SIX-PER-EM SPACE"), (0x2007, "FIGURE SPACE"),
  (0x2008, "PUNCTUATION SPACE"), (0x2009, "THIN SPACE"), (0x200A, "HAIR SPACE"),
  (0x200B, "ZERO WIDTH SPACE"), (0x200B, "ZWSP"), (0x200C, "ZERO WIDTH NON-JOINER"),
  (0x200C, "ZWNJ"), (0x200D, "ZERO WIDTH JOINER"), (0x200D, "ZWJ"), (0x200E, "LEFT-TO-RIGHT MARK"),
  (0x200E, "LRM"), (0x200F, "RIGHT-TO-LEFT MARK"), (0x200F, "RLM"), (0x2010, "HYPHEN"),
  (0x2011, "NON-BREAKING HYPHEN"), (0x2012, "FIGURE DASH"), (0x2013, "EN DASH"),
  (0x2014, "EM DASH"), (0x2015, "HORIZONTAL BAR"), (0x2016, "DOUBLE VERTICAL LINE"),
  (0x2017, "DOUBLE LOW LINE"), (0x2018, "LEFT SINGLE QUOTATION MARK"),
  (0x2019, "RIGHT SINGLE QUOTATION MARK"), (0x201A, "SINGLE LOW-9 QUOTATION MARK"),
  (0x201B, "SINGLE HIGH-REVERSED-9 QUOTATION MARK"), (0x201C, "LEFT DOUBLE QUOTATION MARK"),
  (0x201D, "RIGHT DOUBLE QUOTATION MARK"), (0x201E, "DOUBLE LOW-9 QUOTATION MARK"),
  (0x201F, "DOUBLE HIGH-REVERSED-9 QUOTATION MARK"), (0x2020, "DAGGER"), (0x2021, "DOUBLE DAGGER"),
  (0x2022, "BULLET"), (0x2023, "TRIANGULAR BULLET"), (0x2024, "ONE DOT LEADER"),
  (0x2025, "TWO DOT LEADER"), (0x2026, "HORIZONTAL ELLIPSIS"), (0x2027, "HYPHENATION POINT"),
  (0x2028, "LINE SEPARATOR"), (0x2029, "PARAGRAPH SEPARATOR"), (0x202A, "LEFT-TO-RIGHT EMBEDDING"),
  (0x202A, "LRE"), (0x202B, "RIGHT-TO-LEFT EMBEDDING"), (0x202B, "RLE"), (0x202C, "PDF"),
  (0x202C, "POP DIRECTIONAL FORMATTING"), (0x202D, "LEFT-TO-RIGHT OVERRIDE"), (0x202D, "LRO"),
  (0x202E, "RIGHT-TO-LEFT OVERRIDE"), (0x202E, "RLO"), (0x202F, "NARROW NO-BREAK SPACE"),
  (0x202F, "NNBSP"), (0x2030, "PER MILLE SIGN"), (0x2031, "PER TEN THOUSAND SIGN"),
  (0x2032, "PRIME"), (0x2033, "DOUBLE PRIME"), (0x2034, "TRIPLE PRIME"), (0x2035, "REVERSED PRIME"),
  (0x2036, "REVERSED DOUBLE PRIME"), (0x2037, "REVERSED TRIPLE PRIME"), (0x2038, "CARET"),
  (0x2039, "SINGLE LEFT-POINTING ANGLE QUOTATION MARK"),
  (0x203A, "SINGLE RIGHT-POINTING ANGLE QUOTATION MARK"), (0x203B, "REFERENCE MARK"),
  (0x203C, "DOUBLE EXCLAMATION MARK"), (0x203D, "INTERROBANG"), (0x203E, "OVERLINE"),
  (0x203F, "UNDERTIE"), (0x2040, "CHARACTER TIE"), (0x2041, "CARET INSERTION POINT"),
  (0x2042, "ASTERISM"), (0x2043, "HYPHEN BULLET"), (0x2044, "FRACTION SLASH"),
  (0x2045, "LEFT SQUARE BRACKET WITH QUILL"), (0x2046, "RIGHT SQUARE BRACKET WITH QUILL"),
  (0x2047, "DOUBLE QUESTION MARK"), (0x2048, "QUESTION EXCLAMATION MARK"),
  (0x2049, "EXCLAMATION QUESTION MARK"), (0x204A, "TIRONIAN SIGN ET"),
  (0x204B, "REVERSED PILCROW SIGN"), (0x204C, "BLACK LEFTWARDS BULLET"),
  (0x204D, "BLACK RIGHTWARDS BULLET"), (0x204E, "LOW ASTERISK"), (0x204F, "REVERSED SEMICOLON"),
  (0x2050, "CLOSE UP"), (0x2051, "TWO ASTERISKS ALIGNED VERTICALLY"),
  (0x2052, "COMMERCIAL MINUS SIGN"), (0x2053, "SWUNG DASH"), (0x2054, "INVERTED UNDERTIE"),
  (0x2055, "FLOWER PUNCTUATION MARK"), (0x2056, "THREE DOT PUNCTUATION"),
  (0x2057, "QUADRUPLE PRIME"), (0x2058, "FOUR DOT PUNCTUATION"), (0x2059, "FIVE DOT PUNCTUATION"),
  (0x205A, "TWO DOT PUNCTUATION"), (0x205B, "FOUR DOT MARK"), (0x205C, "DOTTED CROSS"),
  (0x205D, "TRICOLON"), (0x205E, "VERTICAL FOUR DOTS"), (0x205F, "MEDIUM MATHEMATICAL SPACE"),
  (0x205F, "MMSP"), (0x2060, "WJ"), (0x2060, "WORD JOINER"), (0x2061, "FUNCTION APPLICATION"),
  (0x2062, "INVISIBLE TIMES"), (0x2063, "INVISIBLE SEPARATOR"), (0x2064, "INVISIBLE PLUS"),
  (0x2066, "LEFT-TO-RIGHT ISOLATE"), (0x2066, "LRI"), (0x2067, "RIGHT-TO-LEFT ISOLATE"),
  (0x2067, "RLI"), (0x2068, "FIRST STRONG ISOLATE"), (0x2068, "FSI"), (0x2069, "PDI"),
  (0x2069, "POP DIRECTIONAL ISOLATE"), (0x206A, "INHIBIT SYMMETRIC SWAPPING"),
  (0x206B, "ACTIVATE SYMMETRIC SWAPPING"), (0x206C, "INHIBIT ARABIC FORM SHAPING"),
  (0x206D, "ACTIVATE ARABIC FORM SHAPING"), (0x206E, "NATIONAL DIGIT SHAPES"),
  (0x206F, "NOMINAL DIGIT SHAPES"), (0x20A0, "EURO-CURRENCY SIGN"), (0x20A1, "COLON SIGN"),
  (0x20A2, "CRUZEIRO SIGN"), (0x20A3, "FRENCH FRANC SIGN"), (0x20A4, "LIRA SIGN"),
  (0x20A5, "MILL SIGN"), (0x20A6, "NAIRA SIGN"), (0x20A7, "PESETA SIGN"), (0x20A8, "RUPEE SIGN"),
  (0x20A9, "WON SIGN"), (0x20AA, "NEW SHEQEL SIGN"), (0x20AB, "DONG SIGN"), (0x20AC, "EURO SIGN"),
  (0x20AD, "KIP SIGN"), (0x20AE, "TUGRIK SIGN"), (0x20AF, "DRACHMA SIGN"),
  (0x20B0, "GERMAN PENNY SIGN"), (0x20B1, "PESO SIGN"), (0x20B2, "GUARANI SIGN"),
  (0x20B3, "AUSTRAL SIGN"), (0x20B4, "HRYVNIA SIGN"), (0x20B5, "CEDI SIGN"),
  (0x20B6, "LIVRE TOURNOIS SIGN"), (0x20B7, "SPESMILO SIGN"), (0x20B8, "TENGE SIGN"),
  (0x20B9, "INDIAN RUPEE SIGN"), (0x20BA, "TURKISH LIRA SIGN"), (0x20BB, "NORDIC MARK SIGN"),
  (0x20BC, "MANAT SIGN"), (0x20BD, "RUBLE SIGN"), (0x20BE, "LARI SIGN"), (0x20BF, "BITCOIN SIGN"),
  (0x20C0, "SOM SIGN"), (0x2122, "TRADE MARK SIGN"), (0x2190, "LEFTWARDS ARROW"),
  (0x2191, "UPWARDS ARROW"), (0x2192, "RIGHTWARDS ARROW"), (0x2193, "DOWNWARDS ARROW"),
  (0x2212, "MINUS SIGN"), (0x221E, "INFINITY"), (0x2260, "NOT EQUAL TO"),
  (0x2264, "LESS-THAN OR EQUAL TO"), (0x2265, "GREATER-THAN OR EQUAL TO"), (0xFEFF, "BOM"),
  (0xFEFF, "BYTE ORDER MARK"), (0xFEFF, "ZWNBSP")]

/-- The code point that a name stands for. -/
def ofCharacterName (name : List Char) : Option CodePoint :=
  let wanted := String.ofList (name.map Char.toUpper)
  (characterNames.find? fun entry => entry.2 == wanted).map (·.1)

end ManifestLint.Text
