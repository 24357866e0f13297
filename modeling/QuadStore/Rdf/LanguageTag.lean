import QuadStore.Text.Split
import QuadStore.Rdf.Name

/-!
# Language tags

The well-formed tags of BCP 47 (RFC 5646, section 2.1): a language with its extensions, script,
region, variants, extensions and private subtags, a tag for private use alone, or one of the tags
registered before the grammar. Letters count in either case, and only the form of a subtag is
looked at, not the registry.
-/

namespace QuadStore
namespace LanguageTag

/-- The tags registered before the grammar, in lower case. -/
def grandfathered : List String :=
  ["art-lojban", "cel-gaulish", "en-gb-oed", "i-ami", "i-bnn", "i-default", "i-enochian", "i-hak",
   "i-klingon", "i-lux", "i-mingo", "i-navajo", "i-pwn", "i-tao", "i-tay", "i-tsu", "no-bok",
   "no-nyn", "sgn-be-fr", "sgn-be-nl", "sgn-ch-de", "zh-guoyu", "zh-hakka", "zh-min",
   "zh-min-nan", "zh-xiang"]

/-- A piece of a tag between hyphens. -/
abbrev Subtag := List Char

/-- An ASCII letter. -/
def isLetter (c : Char) : Bool := ('a' ≤ c && c ≤ 'z') || ('A' ≤ c && c ≤ 'Z')

/-- Letters only. -/
def isAlpha (s : Subtag) : Bool := s.all isLetter

/-- Digits only. -/
def isNumeric (s : Subtag) : Bool := s.all Name.isDigit

/-- One to eight letters and digits. -/
def isWord (s : Subtag) : Bool :=
  1 ≤ s.length && s.length ≤ 8 && s.all fun c => isLetter c || Name.isDigit c

/-- The letter that opens the private subtags. -/
def isPrivateMark (s : Subtag) : Bool := s == ['x'] || s == ['X']

/-- Private subtags after their mark: at least one. -/
def isPrivate (tail : List Subtag) : Bool := !tail.isEmpty && tail.all isWord

/-- Extensions and private subtags. A single letter or digit opens an extension, which needs a
longer subtag; `fresh` says that the extension opened last still has none. -/
def isExtensions (fresh : Bool) : List Subtag → Bool
  | [] => !fresh
  | s :: rest =>
    if isPrivateMark s then !fresh && isPrivate rest
    else if s.length = 1 then !fresh && isWord s && isExtensions true rest
    else isWord s && isExtensions false rest

/-- A variant has five letters or digits, or four of which the first is a digit. -/
def isVariant (s : Subtag) : Bool :=
  isWord s &&
    (5 ≤ s.length && s.head?.any isLetter || 4 ≤ s.length && s.head?.any Name.isDigit)

/-- A region has two letters or three digits. -/
def isRegion (s : Subtag) : Bool :=
  s.length == 2 && isAlpha s || s.length == 3 && isNumeric s

/-- A script has four letters. -/
def isScript (s : Subtag) : Bool := s.length == 4 && isAlpha s

/-- An extension of the language has three letters. -/
def isExtendedLanguage (s : Subtag) : Bool := s.length == 3 && isAlpha s

/-- Leaves out the first subtag if it is of a kind. -/
def skip (kind : Subtag → Bool) : List Subtag → List Subtag
  | [] => []
  | s :: rest => if kind s then rest else s :: rest

/-- What may follow the language and its extensions. -/
def isTail (subtags : List Subtag) : Bool :=
  let variants := skip isRegion (skip isScript subtags)
  match variants.dropWhile isVariant with
  | [] => true
  | s :: rest => s.length == 1 && isExtensions false (s :: rest)

/-- A tag of the grammar: the language has two or three letters and up to three extensions, or
four to eight letters and none. -/
def isLangtag : List Subtag → Bool
  | [] => false
  | language :: rest =>
    2 ≤ language.length && language.length ≤ 8 && isAlpha language &&
      if language.length < 4 then
        isTail (skip isExtendedLanguage (skip isExtendedLanguage (skip isExtendedLanguage rest)))
      else isTail rest

/-- The well-formed tags. -/
def isWellFormed (tag : String) : Bool :=
  let subtags := Text.splitAll '-' tag.toList
  grandfathered.contains (String.ofList (tag.toList.map Char.toLower)) ||
    isLangtag subtags ||
    match subtags with
    | mark :: rest => isPrivateMark mark && isPrivate rest
    | [] => false

end LanguageTag
end QuadStore
