import Bcirc.BSearch
import Bcirc.CMem
import Bcirc.CStrScan

/-!
# The entity decoder (`plugins/src/title/entities.c`)

`decode_html_entities_utf8` copies a text and puts the characters for the
references in it, `&amp;`, `&#38;` or `&#x26;`. It works in place when it is
given no source, with `to` and `from` as two pointers into the same buffer.

A reference is read completely before anything is written for it, so
`parse_entity` is a function of the string at `current`: the bytes that are
written at `to`, and how far behind `current` it leaves `from`.
-/

namespace Bcirc

open CProg CStr CMem BSearch

/-- `UNICODE_MAX`. -/
def unicodeMax : Nat := 0x10FFFF

/-! ## Names -/

/-- The rows of `NAMED_ENTITIES`. -/
def entityRows : List (String × Char) :=
  [("AElig;", 'Æ'), ("Aacute;", 'Á'), ("Acirc;", 'Â'), ("Agrave;", 'À'), ("Alpha;", 'Α'),
   ("Aring;", 'Å'), ("Atilde;", 'Ã'), ("Auml;", 'Ä'), ("Beta;", 'Β'), ("Ccedil;", 'Ç'),
   ("Chi;", 'Χ'), ("Dagger;", '‡'), ("Delta;", 'Δ'), ("ETH;", 'Ð'), ("Eacute;", 'É'),
   ("Ecirc;", 'Ê'), ("Egrave;", 'È'), ("Epsilon;", 'Ε'), ("Eta;", 'Η'), ("Euml;", 'Ë'),
   ("Gamma;", 'Γ'), ("Iacute;", 'Í'), ("Icirc;", 'Î'), ("Igrave;", 'Ì'), ("Iota;", 'Ι'),
   ("Iuml;", 'Ï'), ("Kappa;", 'Κ'), ("Lambda;", 'Λ'), ("Mu;", 'Μ'), ("Ntilde;", 'Ñ'),
   ("Nu;", 'Ν'), ("OElig;", 'Œ'), ("Oacute;", 'Ó'), ("Ocirc;", 'Ô'), ("Ograve;", 'Ò'),
   ("Omega;", 'Ω'), ("Omicron;", 'Ο'), ("Oslash;", 'Ø'), ("Otilde;", 'Õ'), ("Ouml;", 'Ö'),
   ("Phi;", 'Φ'), ("Pi;", 'Π'), ("Prime;", '″'), ("Psi;", 'Ψ'), ("Rho;", 'Ρ'), ("Scaron;", 'Š'),
   ("Sigma;", 'Σ'), ("THORN;", 'Þ'), ("Tau;", 'Τ'), ("Theta;", 'Θ'), ("Uacute;", 'Ú'),
   ("Ucirc;", 'Û'), ("Ugrave;", 'Ù'), ("Upsilon;", 'Υ'), ("Uuml;", 'Ü'), ("Xi;", 'Ξ'),
   ("Yacute;", 'Ý'), ("Yuml;", 'Ÿ'), ("Zeta;", 'Ζ'), ("aacute;", 'á'), ("acirc;", 'â'),
   ("acute;", '´'), ("aelig;", 'æ'), ("agrave;", 'à'), ("alefsym;", 'ℵ'), ("alpha;", 'α'),
   ("amp;", '&'), ("and;", '∧'), ("ang;", '∠'), ("apos;", '\x27'), ("aring;", 'å'),
   ("asymp;", '≈'), ("atilde;", 'ã'), ("auml;", 'ä'), ("bdquo;", '„'), ("beta;", 'β'),
   ("brvbar;", '¦'), ("bull;", '•'), ("cap;", '∩'), ("ccedil;", 'ç'), ("cedil;", '¸'),
   ("cent;", '¢'), ("chi;", 'χ'), ("circ;", 'ˆ'), ("clubs;", '♣'), ("cong;", '≅'),
   ("copy;", '©'), ("crarr;", '↵'), ("cup;", '∪'), ("curren;", '¤'), ("dArr;", '⇓'),
   ("dagger;", '†'), ("darr;", '↓'), ("deg;", '°'), ("delta;", 'δ'), ("diams;", '♦'),
   ("divide;", '÷'), ("eacute;", 'é'), ("ecirc;", 'ê'), ("egrave;", 'è'), ("empty;", '∅'),
   ("emsp;", '\u2003'), ("ensp;", '\u2002'), ("epsilon;", 'ε'), ("equiv;", '≡'), ("eta;", 'η'),
   ("eth;", 'ð'), ("euml;", 'ë'), ("euro;", '€'), ("exist;", '∃'), ("fnof;", 'ƒ'),
   ("forall;", '∀'), ("frac12;", '½'), ("frac14;", '¼'), ("frac34;", '¾'), ("frasl;", '⁄'),
   ("gamma;", 'γ'), ("ge;", '≥'), ("gt;", '>'), ("hArr;", '⇔'), ("harr;", '↔'), ("hearts;", '♥'),
   ("hellip;", '…'), ("iacute;", 'í'), ("icirc;", 'î'), ("iexcl;", '¡'), ("igrave;", 'ì'),
   ("image;", 'ℑ'), ("infin;", '∞'), ("int;", '∫'), ("iota;", 'ι'), ("iquest;", '¿'),
   ("isin;", '∈'), ("iuml;", 'ï'), ("kappa;", 'κ'), ("lArr;", '⇐'), ("lambda;", 'λ'),
   ("lang;", '〈'), ("laquo;", '«'), ("larr;", '←'), ("lceil;", '⌈'), ("ldquo;", '“'),
   ("le;", '≤'), ("lfloor;", '⌊'), ("lowast;", '∗'), ("loz;", '◊'), ("lrm;", '\u200e'),
   ("lsaquo;", '‹'), ("lsquo;", '‘'), ("lt;", '<'), ("macr;", '¯'), ("mdash;", '—'),
   ("micro;", 'µ'), ("middot;", '·'), ("minus;", '−'), ("mu;", 'μ'), ("nabla;", '∇'),
   ("nbsp;", '\u0020'), ("ndash;", '–'), ("ne;", '≠'), ("ni;", '∋'), ("not;", '¬'),
   ("notin;", '∉'), ("nsub;", '⊄'), ("ntilde;", 'ñ'), ("nu;", 'ν'), ("oacute;", 'ó'),
   ("ocirc;", 'ô'), ("oelig;", 'œ'), ("ograve;", 'ò'), ("oline;", '‾'), ("omega;", 'ω'),
   ("omicron;", 'ο'), ("oplus;", '⊕'), ("or;", '∨'), ("ordf;", 'ª'), ("ordm;", 'º'),
   ("oslash;", 'ø'), ("otilde;", 'õ'), ("otimes;", '⊗'), ("ouml;", 'ö'), ("para;", '¶'),
   ("part;", '∂'), ("permil;", '‰'), ("perp;", '⊥'), ("phi;", 'φ'), ("pi;", 'π'), ("piv;", 'ϖ'),
   ("plusmn;", '±'), ("pound;", '£'), ("prime;", '′'), ("prod;", '∏'), ("prop;", '∝'),
   ("psi;", 'ψ'), ("quot;", '\x22'), ("rArr;", '⇒'), ("radic;", '√'), ("rang;", '〉'),
   ("raquo;", '»'), ("rarr;", '→'), ("rceil;", '⌉'), ("rdquo;", '”'), ("real;", 'ℜ'),
   ("reg;", '®'), ("rfloor;", '⌋'), ("rho;", 'ρ'), ("rlm;", '\u200f'), ("rsaquo;", '›'),
   ("rsquo;", '’'), ("sbquo;", '‚'), ("scaron;", 'š'), ("sdot;", '⋅'), ("sect;", '§'),
   ("shy;", '\u00ad'), ("sigma;", 'σ'), ("sigmaf;", 'ς'), ("sim;", '∼'), ("spades;", '♠'),
   ("sub;", '⊂'), ("sube;", '⊆'), ("sum;", '∑'), ("sup1;", '¹'), ("sup2;", '²'), ("sup3;", '³'),
   ("sup;", '⊃'), ("supe;", '⊇'), ("szlig;", 'ß'), ("tau;", 'τ'), ("there4;", '∴'),
   ("theta;", 'θ'), ("thetasym;", 'ϑ'), ("thinsp;", '\u2009'), ("thorn;", 'þ'), ("tilde;", '˜'),
   ("times;", '×'), ("trade;", '™'), ("uArr;", '⇑'), ("uacute;", 'ú'), ("uarr;", '↑'),
   ("ucirc;", 'û'), ("ugrave;", 'ù'), ("uml;", '¨'), ("upsih;", 'ϒ'), ("upsilon;", 'υ'),
   ("uuml;", 'ü'), ("weierp;", '℘'), ("xi;", 'ξ'), ("yacute;", 'ý'), ("yen;", '¥'),
   ("yuml;", 'ÿ'), ("zeta;", 'ζ'), ("zwj;", '\u200d'), ("zwnj;", '\u200c')]

/-- `NAMED_ENTITIES`, as the bytes in its strings. -/
def namedEntities : List (Str × Str) :=
  entityRows.map fun row => (ascii row.1, String.utf8EncodeChar row.2)

/-- `cmp`. -/
def cmp (key : Str) (value : Str × Str) : Int := strncmp key value.1 value.1.length

def getNamedEntity (name : Str) : Option Str := (bsearch (cmp name) namedEntities).map (·.2)

/-! ## References -/

/-- The bytes `putc_utf8` writes. -/
def putcUtf8 (cp : Nat) : Str :=
  if cp ≤ 0x007F then [cp.toUInt8]
  else if cp ≤ 0x07FF then
    [((6 <<< 5) ||| (cp >>> 6)).toUInt8, ((2 <<< 6) ||| (cp &&& 0x3F)).toUInt8]
  else if cp ≤ 0xFFFF then
    [((14 <<< 4) ||| (cp >>> 12)).toUInt8, ((2 <<< 6) ||| ((cp >>> 6) &&& 0x3F)).toUInt8,
     ((2 <<< 6) ||| (cp &&& 0x3F)).toUInt8]
  else if cp ≤ 0x10FFFF then
    [((30 <<< 3) ||| (cp >>> 18)).toUInt8, ((2 <<< 6) ||| ((cp >>> 12) &&& 0x3F)).toUInt8,
     ((2 <<< 6) ||| ((cp >>> 6) &&& 0x3F)).toUInt8, ((2 <<< 6) ||| (cp &&& 0x3F)).toUInt8]
  else []

/-- `&#…;` with the semicolon at `semicolon`: the code point. -/
def parseNumeric (current : Str) (semicolon : Nat) : Option Nat :=
  let hex := current[2]? == some 120 || current[2]? == some 88
  let start := if hex then 3 else 2
  let cp := strtoul (current.drop start) (if hex then 16 else 10)
  let fail := cp.errno || start + cp.tail != semicolon || decide (unicodeMax < cp.value)
  if fail then none else some cp.value

def parseEntity (current : Str) : Option (Str × Nat) :=
  match memchr current 59 with
  | none => none
  | some semicolon =>
      if current[1]? = some 35 then
        (parseNumeric current semicolon).map fun cp => (putcUtf8 cp, semicolon + 1)
      else (getNamedEntity (current.drop 1)).map fun entity => (entity, semicolon + 1)

/-! ## The loop -/

/-- Up to the last `&`, for at most `n` turns: `to` and `from` behind it. -/
def decodeLoop : Nat → Nat → Nat → Prog Mem (Nat × Nat)
  | 0, _, _ => throw .diverges
  | n + 1, toPtr, fromPtr => do
      let text ← stringAt fromPtr
      match memchr text 38 with
      | none => pure (toPtr, fromPtr)
      | some i => do
          memmove toPtr fromPtr i
          let toPtr := toPtr + i
          let current ← stringAt (fromPtr + i)
          match parseEntity current with
          | some (bytes, len) => do
              writeBytes toPtr bytes
              decodeLoop n (toPtr + bytes.length) (fromPtr + i + len)
          | none => do
              writeBytes toPtr (current.take 1)
              decodeLoop n (toPtr + 1) (fromPtr + i + 1)

/-- A turn takes a byte at least, so there are no more turns than bytes. -/
def decodeHtmlEntitiesUtf8 (dest : Nat) (src : Option Nat) : Prog Mem Nat := do
  let mem ← get
  let (toPtr, fromPtr) ← decodeLoop (mem.length + 1) dest (src.getD dest)
  let remaining ← stringAt fromPtr
  memmove toPtr fromPtr remaining.length
  let toPtr := toPtr + remaining.length
  writeBytes toPtr [0]
  pure (toPtr - dest)

end Bcirc
