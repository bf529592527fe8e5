import ShapeGrammar.Text.Printable
/-!
# Quoted text in messages

Messages show a piece of text between quotes: single quotes, or double quotes when
the text holds a single quote and no double quote. Inside, the chosen quote and the
backslash are preceded by a backslash; tab, line feed and carriage return are
written `\t`, `\n` and `\r`; other characters that are not printable are written as
`\xhh`, `\uhhhh` or `\Uhhhhhhhh` by the size of their code point; every other
character stands as it is.
-/

namespace ShapeGrammar

namespace Text

/-- `n` in lower-case hexadecimal, padded with zeros to `width` digits. -/
def hexPadded (width n : Nat) : String :=
  let ds := Nat.toDigits 16 n
  String.ofList (List.replicate (width - ds.length) '0' ++ ds)

/-- The written form of one character inside quotes `q`. -/
def escapeChar (q : Char) (c : Char) : String :=
  if c == q || c == '\\' then String.ofList ['\\', c]
  else if c == '\t' then "\\t"
  else if c == '\n' then "\\n"
  else if c == '\r' then "\\r"
  else if c.toNat < 32 || c.toNat == 127 then "\\x" ++ hexPadded 2 c.toNat
  else if c.toNat < 127 || isPrintable c then String.singleton c
  else if c.toNat ≤ 0xFF then "\\x" ++ hexPadded 2 c.toNat
  else if c.toNat ≤ 0xFFFF then "\\u" ++ hexPadded 4 c.toNat
  else "\\U" ++ hexPadded 8 c.toNat

/-- The single quote. -/
def apostrophe : Char := Char.ofNat 39

/-- The quote that encloses a text: double when it holds a single quote and no double one. -/
def quoteFor (s : String) : Char :=
  if s.contains apostrophe && !s.contains '"' then '"' else apostrophe

/-- The text between quotes, escaped. -/
def quote (s : String) : String :=
  let q := quoteFor s
  let body := s.toList.foldl (fun acc c => acc ++ escapeChar q c) ""
  String.singleton q ++ body ++ String.singleton q

end Text

end ShapeGrammar
