/-!
# Content types

A content type is a type and a subtype with a slash between them, and parameters behind
semicolons. It stands for JSON if the type is `application` and the subtype is `json` in front of
its last plus sign or behind it; letter case does not count. What follows must be well formed:
every parameter has a name and a value, which is a word or stands in quotes, and blanks may stand
only in front of a name and behind a quoted value.
-/

namespace ChatRelay.Http

/-- The characters of a word. -/
def isWordChar (c : Char) : Bool :=
  c.isAlphanum || "!#$%&'*+-.^_\x60|~".toList.contains c

/-- The characters that may stand in quotes. -/
def isQuotable (c : Char) : Bool :=
  ' ' ≤ c && c ≤ '~'

/-- Where a reader of parameters stands. -/
inductive ParameterState where
  /-- In front of a name. -/
  | start
  | name
  /-- In front of a value. -/
  | equals
  | value
  /-- In front of a quoted value. -/
  | quote
  | quoted
  /-- Behind a quoted value. -/
  | closed
  | broken
  deriving DecidableEq, Repr

namespace ParameterState

/-- The state behind a character. -/
def next (s : ParameterState) (c : Char) : ParameterState :=
  match s with
  | start => if c = ' ' then start else if isWordChar c then name else broken
  | name => if c = '=' then equals else if isWordChar c then name else broken
  | equals => if c = '"' then quote else if isWordChar c then value else broken
  | value => if c = ';' then start else if isWordChar c then value else broken
  | quote => if isQuotable c then quoted else broken
  | quoted => if c = '"' then closed else if isQuotable c then quoted else broken
  | closed => if c = ';' then start else if c = ' ' then closed else broken
  | broken => broken

/-- Parameters may end here. -/
def isFinal : ParameterState → Bool
  | start | equals | value | closed => true
  | name | quote | quoted | broken => false

end ParameterState

/-- The parameters behind the first semicolon are well formed. -/
def areParameters (cs : List Char) : Bool :=
  (cs.foldl ParameterState.next .start).isFinal

/-- The parts of a subtype in front of and behind its last plus sign. A plus sign at the front
does not divide it. -/
def splitSuffix (subtype : List Char) : List Char × Option (List Char) :=
  let suffix := (subtype.reverse.takeWhile (· ≠ '+')).reverse
  let front := subtype.take (subtype.length - suffix.length - 1)
  if subtype.contains '+' ∧ front ≠ [] then (front, some suffix) else (subtype, none)

def lowerChars (cs : List Char) : List Char :=
  cs.map Char.toLower

/-- The content type stands for JSON. -/
def isJson (contentType : String) : Bool :=
  let cs := contentType.toList
  let kind := cs.takeWhile (· ≠ '/')
  let rest := (cs.dropWhile (· ≠ '/')).drop 1
  let subtype := rest.takeWhile (· ≠ ';')
  let (front, suffix) := splitSuffix (lowerChars subtype)
  lowerChars kind = "application".toList && subtype.all isWordChar &&
    (front = "json".toList || suffix = some "json".toList) &&
    areParameters ((rest.dropWhile (· ≠ ';')).drop 1)

end ChatRelay.Http
