import Cinematic.Log.Entry
import Cinematic.Log.Pattern.Value
import Cinematic.Text.Offset
import Cinematic.Text.Split

/-!
# Directives of the log

A **directive** says how much is shown of some entries. It is written

  `target[span{field=value}]=level`

and each part may be missing: the target is what the path of an entry's source begins with, the
field is one that an entry has, and the level is the least severe one that is shown. A level alone
is for everything; a target or a bracket without a level shows all of it.

A span is a stretch of time in which entries are made, and values are asked of spans only. The
engine has no spans, so **a directive that names a span or a value is about no entry at all**
(`Cinematic.Log.Directive.isStatic`); it is read nevertheless, for a filter with a directive that cannot
be read has no meaning.

White space around a directive is not looked at when its parts are told apart, but the parts are
cut at the offsets found from the text *with* it (`Cinematic.Log.Directive.ofText?`). So a level
with a blank beside it is not a level but a target.
-/

namespace Cinematic.Log

/-! ### Thresholds -/

/-- The word for a level in a directive. -/
def Level.word : Level → String
  | .error => "error"
  | .warn => "warn"
  | .info => "info"
  | .debug => "debug"
  | .trace => "trace"

/-- All levels, the most severe first. -/
def Level.all : List Level := [.error, .warn, .info, .debug, .trace]

/-- The least severe level that is shown; there may be none. -/
abbrev Threshold := Option Level

namespace Threshold

/-- The word for a threshold in a directive. -/
def word : Threshold → String
  | some level => level.word
  | none => "off"

/-- How many levels are shown. -/
def rank : Threshold → Nat
  | some level => level.rank
  | none => 0

/-- All thresholds. -/
def all : List Threshold := none :: Level.all.map some

/-- The threshold that a text means: its word in upper or lower case, or how many levels are shown. -/
def ofText? (text : String) : Option Threshold :=
  match all.find? fun t => t.word = text.toLower with
  | some t => some t
  | none => (Text.natural? 10 text.toList).bind fun n => all.find? fun t => t.rank = n

end Threshold

/-! ### Fields that are asked for -/

/-- A field that is asked for, with its value or without. -/
structure FieldQuery where
  /-- The name of the field. -/
  name : String
  /-- The value that it must have. -/
  value : Option String
deriving Repr, DecidableEq

namespace FieldQuery

/-- The text of a query. -/
def text (q : FieldQuery) : String :=
  match q.value with
  | none => q.name
  | some value => q.name ++ "=" ++ value

/-- The query that a text means. What comes after a second equals sign is not looked at. -/
def ofText? (text : String) : Option FieldQuery :=
  if text.isEmpty then none
  else
    match Text.pieces '=' text with
    | name :: value :: _ =>
      if Pattern.isValue value.toList then some ⟨name, some value⟩ else none
    | _ => some ⟨text, none⟩

end FieldQuery

/-! ### Directives -/

/-- What is shown of some entries. -/
structure Directive where
  /-- What the paths of the sources begin with. -/
  target : String := ""
  /-- The span in which the entries are made. -/
  span : Option String := none
  /-- The field that the entries have. -/
  field : Option FieldQuery := none
  /-- The least severe level that is shown. -/
  threshold : Threshold := some .trace
deriving Repr, DecidableEq

namespace Directive

/-- The text between the brackets of a directive, and the brackets. -/
def bracketText (d : Directive) : String :=
  match d.span, d.field with
  | none, none => ""
  | some span, none => "[" ++ span ++ "]"
  | span, some query => "[" ++ span.getD "" ++ "\x7b" ++ query.text ++ "\x7d]"

/-- The text of a directive. -/
def text (d : Directive) : String :=
  let subject := d.target ++ d.bracketText
  if subject.isEmpty then d.threshold.word else subject ++ "=" ++ d.threshold.word

/-- Whether a target can begin with a character. -/
def isTargetStart (c : Char) : Bool := Text.isAlphanumeric c || c = '_' || c = ':' || c = '-'

/-- A text cut from some characters, from one offset to another. -/
def cut? (cs : List Char) (start stop : Nat) : Option String :=
  (Text.between? start stop cs).map String.ofList

/-- A text cut from some characters, from an offset to the end. -/
def cutFrom? (cs : List Char) (start : Nat) : Option String :=
  (Text.dropBytes? start cs).map String.ofList

/-- The threshold whose text starts at an offset. Without a text, all is shown. -/
def thresholdFrom? (cs : List Char) (start : Nat) : Option Threshold :=
  (cutFrom? cs start).bind fun text =>
    if text.isEmpty then some (some .trace) else Threshold.ofText? text

/-- The directive with the threshold that follows its brackets, if one does. The brackets end at
offset `stop`, and `rest` is what follows them. -/
def close? (cs : List Char) (d : Directive) (stop : Nat) : List Char → Option Directive
  | [] => some d
  | '=' :: _ => (thresholdFrom? cs (stop + 1)).map fun t => { d with threshold := t }
  | _ => none

/-- The directive with what stands in its brackets. The opening bracket ends at offset `start`, and
`rest` is what follows it. -/
def bracket? (cs : List Char) (d : Directive) (start : Nat) (rest : List Char) :
    Option Directive := do
  let span := rest.takeWhile fun c => c ≠ ']' ∧ c ≠ '\x7b'
  let stop := start + Text.byteLength span
  let name ← cut? cs start stop
  match rest.dropWhile fun c => c ≠ ']' ∧ c ≠ '\x7b' with
  | ']' :: rest => close? cs { d with span := some name } (stop + 1) rest
  | '\x7b' :: rest =>
    let query := rest.takeWhile (· ≠ '\x7d')
    let queryStop := stop + 1 + Text.byteLength query
    match rest.dropWhile (· ≠ '\x7d') with
    | '\x7d' :: ']' :: rest =>
      let field ← (cut? cs (stop + 1) queryStop).bind FieldQuery.ofText?
      let span := if name.isEmpty then none else some name
      close? cs { d with span := span, field := some field } (queryStop + 2) rest
    | _ => none
  | _ => none

/-- The directive of one word: a level for everything, or a target of which all is shown. -/
def ofWord (word : String) : Directive :=
  match Threshold.ofText? word with
  | some t => { threshold := t }
  | none => { target := word }

/-- **The directive that a text means**; there are no commas in it. -/
def ofText? (text : String) : Option Directive :=
  let cs := text.toList
  match Text.trimBlanks cs with
  | [] => none
  | '[' :: rest => bracket? cs {} 1 rest
  | c :: rest =>
    if isTargetStart c then
      let target := (c :: rest).takeWhile fun c => c ≠ '=' ∧ c ≠ '['
      let stop := Text.byteLength target
      match (c :: rest).dropWhile fun c => c ≠ '=' ∧ c ≠ '[' with
      | [] => some (ofWord text)
      | '[' :: rest =>
        (cut? cs 0 stop).bind fun target => bracket? cs { target := target } (stop + 1) rest
      | rest => (cut? cs 0 stop).bind fun target => close? cs { target := target } stop rest
    else none

/-- Whether a directive can be about entries: it names no span and no value. -/
def isStatic (d : Directive) : Bool := d.span.isNone && d.field.all (·.value.isNone)

/-- Whether a directive is about an entry. -/
def fits (d : Directive) (e : Entry) : Bool :=
  d.isStatic && d.target.toList.isPrefixOf e.source.path.toList
    && d.field.all fun query => e.hasField query.name

/-- Whether a directive shows an entry that it is about. -/
def shows (d : Directive) (e : Entry) : Bool := e.level.rank ≤ d.threshold.rank

/-- The name of the field that a directive asks for; no name comes before all others. -/
def fieldName (d : Directive) : Option String := d.field.map (·.name)

/-- Whether the second of two directives is at least as special as the first: it has the longer target
or, if they are equally long, asks for a field that the other does not ask for, or for one whose
name comes no earlier in the order of texts. -/
def noLessSpecial (first second : Directive) : Bool :=
  let firstLength := first.target.utf8ByteSize
  let secondLength := second.target.utf8ByteSize
  firstLength < secondLength
    || (firstLength = secondLength
      && match first.fieldName, second.fieldName with
        | none, _ => true
        | some _, none => false
        | some a, some b => ¬ b < a)

end Directive

end Cinematic.Log
