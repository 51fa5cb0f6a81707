import PageBundle.Charset.Tables
import PageBundle.Text.Blank
import PageBundle.Text.Letter

/-!
# Charsets

A charset is an encoding that resources can be read and written in. It is chosen by a label, which
is compared without its case and the blanks around it. Encodings that cannot be written, such as
UTF-16, have no charset. How a charset other than UTF-8 reads and writes is up to the codecs that
are given for the names.
-/

namespace PageBundle

/-- An encoding of texts: its canonical name, and how it works. -/
structure Charset where
  name : String
  codec : Charset.Codec

namespace Charset

/-- The charset of resources unless another is configured. -/
def utf8 : Charset := ⟨"UTF-8", .utf8⟩

instance : Inhabited Charset := ⟨utf8⟩

/-- The names of the charsets, each with its labels. -/
def labels : List (String × List String) :=
  [("UTF-8",
    ["utf8", "utf-8", "unicode20utf8", "unicode11utf8", "x-unicode20utf8", "unicode-1-1-utf-8"]),
   ("Big5",
    ["big5", "csbig5", "cn-big5", "x-x-big5", "big5-hkscs"]),
   ("EUC-JP",
    ["euc-jp", "x-euc-jp", "cseucpkdfmtjapanese"]),
   ("EUC-KR",
    ["korean", "euc-kr", "ksc5601", "cseuckr", "ksc_5601", "iso-ir-149", "windows-949",
     "csksc56011987", "ks_c_5601-1987", "ks_c_5601-1989"]),
   ("gb18030",
    ["gb18030"]),
   ("GBK",
    ["gbk", "x-gbk", "gb2312", "gb_2312", "chinese", "csgb2312", "iso-ir-58", "gb_2312-80",
     "csiso58gb231280"]),
   ("IBM866",
    ["866", "cp866", "ibm866", "csibm866"]),
   ("ISO-2022-JP",
    ["iso-2022-jp", "csiso2022jp"]),
   ("ISO-8859-10",
    ["l6", "latin6", "iso885910", "iso8859-10", "iso-ir-157", "iso-8859-10", "csisolatin6"]),
   ("ISO-8859-13",
    ["iso885913", "iso8859-13", "iso-8859-13"]),
   ("ISO-8859-14",
    ["iso885914", "iso8859-14", "iso-8859-14"]),
   ("ISO-8859-15",
    ["l9", "iso885915", "iso8859-15", "iso-8859-15", "iso_8859-15", "csisolatin9"]),
   ("ISO-8859-16",
    ["iso-8859-16"]),
   ("ISO-8859-2",
    ["l2", "latin2", "iso88592", "iso8859-2", "iso-ir-101", "iso-8859-2", "iso_8859-2",
     "csisolatin2", "iso_8859-2:1987"]),
   ("ISO-8859-3",
    ["l3", "latin3", "iso88593", "iso8859-3", "iso-8859-3", "iso_8859-3", "iso-ir-109",
     "csisolatin3", "iso_8859-3:1988"]),
   ("ISO-8859-4",
    ["l4", "latin4", "iso88594", "iso8859-4", "iso-ir-110", "iso-8859-4", "iso_8859-4",
     "csisolatin4", "iso_8859-4:1988"]),
   ("ISO-8859-5",
    ["iso88595", "cyrillic", "iso8859-5", "iso-ir-144", "iso-8859-5", "iso_8859-5",
     "iso_8859-5:1988", "csisolatincyrillic"]),
   ("ISO-8859-6",
    ["arabic", "ecma-114", "iso88596", "asmo-708", "iso8859-6", "iso-8859-6", "iso_8859-6",
     "iso-ir-127", "csiso88596e", "csiso88596i", "iso-8859-6-e", "iso-8859-6-i", "iso_8859-6:1987",
     "csisolatinarabic"]),
   ("ISO-8859-7",
    ["greek", "greek8", "iso88597", "ecma-118", "elot_928", "iso8859-7", "iso-ir-126", "iso-8859-7",
     "iso_8859-7", "sun_eu_greek", "iso_8859-7:1987", "csisolatingreek"]),
   ("ISO-8859-8",
    ["visual", "hebrew", "iso88598", "iso8859-8", "iso-8859-8", "iso_8859-8", "iso-ir-138",
     "csiso88598e", "iso-8859-8-e", "iso_8859-8:1988", "csisolatinhebrew"]),
   ("ISO-8859-8-I",
    ["logical", "csiso88598i", "iso-8859-8-i"]),
   ("KOI8-R",
    ["koi", "koi8", "koi8-r", "koi8_r", "cskoi8r"]),
   ("KOI8-U",
    ["koi8-u", "koi8-ru"]),
   ("macintosh",
    ["mac", "macintosh", "csmacintosh", "x-mac-roman"]),
   ("Shift_JIS",
    ["sjis", "ms932", "x-sjis", "ms_kanji", "shift-jis", "shift_jis", "csshiftjis", "windows-31j"]),
   ("windows-1250",
    ["cp1250", "x-cp1250", "windows-1250"]),
   ("windows-1251",
    ["cp1251", "x-cp1251", "windows-1251"]),
   ("windows-1252",
    ["l1", "cp819", "ascii", "latin1", "cp1252", "ibm819", "iso88591", "x-cp1252", "us-ascii",
     "iso8859-1", "iso-ir-100", "iso-8859-1", "iso_8859-1", "csisolatin1", "windows-1252",
     "ansi_x3.4-1968", "iso_8859-1:1987"]),
   ("windows-1253",
    ["cp1253", "x-cp1253", "windows-1253"]),
   ("windows-1254",
    ["l5", "cp1254", "latin5", "x-cp1254", "iso88599", "iso8859-9", "iso-ir-148", "iso-8859-9",
     "iso_8859-9", "csisolatin5", "windows-1254", "iso_8859-9:1989"]),
   ("windows-1255",
    ["cp1255", "x-cp1255", "windows-1255"]),
   ("windows-1256",
    ["cp1256", "x-cp1256", "windows-1256"]),
   ("windows-1257",
    ["cp1257", "x-cp1257", "windows-1257"]),
   ("windows-1258",
    ["cp1258", "x-cp1258", "windows-1258"]),
   ("windows-874",
    ["tis-620", "dos-874", "iso885911", "iso8859-11", "iso-8859-11", "windows-874"]),
   ("x-mac-cyrillic",
    ["x-mac-cyrillic", "x-mac-ukrainian"]),
   ("x-user-defined",
    ["x-user-defined"])]

/-- The name of the charset of a label. -/
def nameOf? (label : String) : Option String :=
  (labels.find? fun e => e.2.contains (Text.lower (Text.trim label))).map (·.1)

/-- The charset of a name. UTF-8 is always the same. -/
def ofName (codecOf : String → Codec) (name : String) : Charset :=
  if name = utf8.name then utf8 else ⟨name, codecOf name⟩

/-- The charset of a label. -/
def ofLabel? (label : String) (codecOf : String → Codec := .ofTables) : Option Charset :=
  (nameOf? label).map (ofName codecOf)

@[simp] theorem ofName_utf8 (codecOf : String → Codec) : ofName codecOf "UTF-8" = utf8 :=
  if_pos rfl

/-- The text of some bytes, unless they are malformed. -/
def decode? (c : Charset) (bs : Bytes) : Option String :=
  (c.codec.decode? bs).map String.ofList

/-- The bytes of a text, unless the charset lacks one of its characters. -/
def encode? (c : Charset) (s : String) : Option Bytes :=
  c.codec.encode? s.toList

end Charset

end PageBundle
