import CentLedger.Text.Blank

/-!
# Log filters

A filter is a comma-separated list of directives. A directive sets the least severe level that passes, for all targets
or for those that begin with a given text; the directive with the longest such text decides. Where no directive is
left, errors alone pass.
-/

namespace CentLedger

namespace Log

/-- How severe an event is. -/
inductive Level
  | error
  | warn
  | info
  | debug
  | trace
  deriving DecidableEq, Repr

namespace Level

/-- The word for a level in a log. -/
def text : Level → String
  | error => "ERROR"
  | warn => "WARN"
  | info => "INFO"
  | debug => "DEBUG"
  | trace => "TRACE"

/-- The rank of a level: one for the most severe. -/
def rank : Level → Nat
  | error => 1
  | warn => 2
  | info => 3
  | debug => 4
  | trace => 5

end Level

/-- The greatest rank that passes: zero lets nothing pass. -/
abbrev Threshold := Nat

/-- The threshold that lets everything pass. -/
def everything : Threshold := 5

/-- The words for thresholds, by rank. -/
def thresholdWords : List String :=
  ["off", "error", "warn", "info", "debug", "trace"]

/-- The threshold that a word in letters of any case or a digit names. -/
def threshold? (s : List Char) : Option Threshold :=
  match thresholdWords.findIdx? fun w => w.toList = s.map Char.toLower with
  | some n => some n
  | none =>
    let digits := match s with
      | '+' :: rest => rest
      | s => s
    if digits.isEmpty || !digits.all Char.isDigit then none
    else
      let n := digits.foldl (fun n c => n * 10 + (c.toNat - '0'.toNat)) 0
      if n ≤ everything then some n else none

/-- What a directive applies to. -/
inductive Scope
  /-- Every target. -/
  | all
  /-- The targets that begin with a text. -/
  | target (begin : String)
  /-- What happens inside certain spans; no event outside of one is meant. -/
  | spans
  deriving DecidableEq, Repr

/-- A directive of a filter. -/
structure Directive where
  scope : Scope
  threshold : Threshold
  deriving DecidableEq, Repr

namespace Directive

/-- A character that may begin a directive: a letter, a digit or one of three signs. -/
def mayBegin (c : Char) : Bool :=
  c.isAlphanum || c = '-' || c = ':' || c = '_' || 128 ≤ c.toNat

/-- The threshold after an equals sign; nothing there stands for everything. -/
def levelPart? (s : List Char) : Option Threshold :=
  if s.isEmpty then some everything else threshold? s

/-- What follows the bracket that closes a span: nothing, or an equals sign and a threshold. -/
def closed? : List Char → Option Directive
  | '=' :: level => (levelPart? level).map fun t => ⟨.spans, t⟩
  | s => if hasWord s then none else some ⟨.spans, everything⟩

/-- A directive from inside the bracket that opens a span: the name of the span, and fields between braces if there are
any. -/
def inSpan? (s : List Char) : Option Directive :=
  match s.dropWhile fun c => c ≠ ']' && c ≠ '\x7b' with
  | ']' :: rest => closed? rest
  | '\x7b' :: fields =>
    match fields.takeWhile (· ≠ '\x7d'), fields.dropWhile (· ≠ '\x7d') with
    | _ :: _, '\x7d' :: ']' :: rest => closed? rest
    | _, _ => none
  | _ => none

/-- The directive that a text writes: a level, a target, or a target with a level. The places of the marks are counted
from the first character that is not blank, but blanks belong to the words, so that a word with blanks before it is
none. -/
def parse (s : List Char) : Option Directive :=
  let trimmed := trimStart s
  let head := trimmed.takeWhile fun c => c ≠ '=' && c ≠ '['
  match head, trimmed.drop head.length with
  | [], '[' :: inside => inSpan? inside
  | [], _ => none
  | c :: _, rest =>
    if !mayBegin c then none
    else
      match rest with
      | [] =>
        match threshold? s with
        | some t => some ⟨.all, t⟩
        | none => some ⟨.target (String.ofList s), everything⟩
      | '=' :: _ =>
        let target := String.ofList (s.take head.length)
        (levelPart? (s.drop (head.length + 1))).map fun t => ⟨.target target, t⟩
      | _ :: inside => inSpan? inside

/-- How specific the scope of a directive is for a target; nothing if the target is not in it. -/
def specificity? (d : Directive) (target : String) : Option Nat :=
  match d.scope with
  | .all => some 0
  | .target begin => if begin.toList.isPrefixOf target.toList then some (begin.length + 1) else none
  | .spans => none

end Directive

/-- The directives of a filter, in the order in which they were given. -/
abbrev Filter := List Directive

namespace Filter

/-- The texts between commas that are not empty. -/
def parts (s : String) : List (List Char) :=
  (s.toList.splitOn ',').filter fun part => !part.isEmpty

/-- The filter that lets errors alone pass. -/
def errorsOnly : Filter :=
  [⟨.all, 1⟩]

/-- A filter with some directives. -/
def ofDirectives (ds : List Directive) : Filter :=
  if ds.isEmpty then errorsOnly else ds

/-- The filter that a text writes; what is no directive is left out. -/
def parseLenient (s : String) : Filter :=
  ofDirectives ((parts s).filterMap Directive.parse)

/-- The filter that a text writes, if all of it is directives. -/
def parse (s : String) : Option Filter :=
  ((parts s).mapM Directive.parse).map ofDirectives

/-- The threshold for a target: that of the most specific directive, and of two the later one. -/
def thresholdFor (f : Filter) (target : String) : Threshold :=
  (f.foldl
    (fun best d =>
      match d.specificity? target with
      | none => best
      | some n => if best.1 ≤ n then (n, d.threshold) else best)
    (0, 0)).2

/-- An event passes a filter. -/
def allows (f : Filter) (target : String) (level : Level) : Bool :=
  level.rank ≤ f.thresholdFor target

end Filter

end Log

end CentLedger
