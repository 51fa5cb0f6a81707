import PageBundle.Charset.Basic
import PageBundle.Gzip.Member
import PageBundle.StyleSheet.Minify

/-!
# Tools

The programs that the making of artifacts calls on: a compressor, a minifier of style sheets, and
the codecs of charsets. Each of them may give anything and may fail. What is proved of artifacts is
proved for all tools; the built-in ones are those that the program runs with.
-/

namespace PageBundle

/-- The programs that are called on. -/
structure Tools where
  compress : Gzip.Level → Bytes → Except Gzip.Error Bytes
  minifyStyleSheet : String → Except StyleSheet.Error String
  /-- The codec of the charset of a name, unless it is UTF-8. -/
  codecOf : String → Charset.Codec

/-- Tools that store the data of an artifact without making it smaller, that minify lists of rules,
and that have tables for a few charsets. -/
def Tools.builtIn : Tools where
  compress level data := .ok (Gzip.compress level data)
  minifyStyleSheet := StyleSheet.minify
  codecOf := .ofTables

end PageBundle
