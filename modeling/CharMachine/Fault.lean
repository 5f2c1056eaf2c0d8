import CharMachine.Diagnostic.Layout
import CharMachine.Diagnostic.Standard

/-!
# Faults

A parse error says what kind of failure it is, with the data of that kind, and carries either a
plain message or a diagnostic. The kinds form a small tree of categories, which is how a caller
asks for "any quoted-string error". A fault is whatever ends a handler early: a parse error, an
error of the handler's own, or the end of its step budget.
-/

namespace CharMachine

/-- The categories of parse errors. -/
inductive Category where
  | general
  | unknownState
  | inputTooLarge
  | quoted
  | invalidLeading
  | invalidTrailing
  | invalidEscape
  deriving DecidableEq, Repr

namespace Category

def all : List Category :=
  [general, unknownState, inputTooLarge, quoted, invalidLeading, invalidTrailing, invalidEscape]

/-- The category directly above; only `general` has none. -/
def parent? : Category → Option Category
  | general => none
  | unknownState | inputTooLarge | quoted => some general
  | invalidLeading | invalidTrailing | invalidEscape => some quoted

/-- Whether errors of category `c` are also errors of category `d`. The tree has three levels. -/
def isA (c d : Category) : Bool :=
  c = d ∨ c.parent? = some d ∨ (c.parent?.bind parent?) = some d

end Category

/-- A kind of parse error with its data. A quoted-string error may know its position. -/
inductive ErrorKind where
  | general
  | unknownState (state : Int)
  | inputTooLarge (length limit : Int)
  | quoted (position : Option Int)
  | invalidLeading (position : Option Int)
  | invalidTrailing (position : Option Int)
  | invalidEscape (position : Option Int)
  deriving DecidableEq, Repr

def ErrorKind.category : ErrorKind → Category
  | general => .general
  | unknownState _ => .unknownState
  | inputTooLarge _ _ => .inputTooLarge
  | quoted _ => .quoted
  | invalidLeading _ => .invalidLeading
  | invalidTrailing _ => .invalidTrailing
  | invalidEscape _ => .invalidEscape

/-- What an error has to say: words of its own or a diagnostic. -/
inductive Report where
  | plain (message : String)
  | diagnosed (diagnostic : Diagnostic)
  deriving DecidableEq, Repr

namespace Report

def diagnostic? : Report → Option Diagnostic
  | plain _ => none
  | diagnosed diagnostic => some diagnostic

/-- The text of a report; a diagnostic is shown in its annotated lines. -/
def message : Report → String
  | plain message => message
  | diagnosed diagnostic => diagnostic.render

end Report

/-- A failed parse. -/
structure ParseError where
  kind : ErrorKind
  report : Report
  deriving DecidableEq, Repr

namespace ParseError

def message (error : ParseError) : String := error.report.message

def code? (error : ParseError) : Option Nat :=
  error.report.diagnostic?.map fun diagnostic => diagnostic.code.value

def isA (error : ParseError) (category : Category) : Bool := error.kind.category.isA category

/-- The current state has no handler. -/
def unknownState (state : Int) : ParseError :=
  ⟨.unknownState state, .diagnosed (.unknownState state)⟩

/-- The text is longer than the limit allows. -/
def inputTooLarge (length limit : Nat) : ParseError :=
  ⟨.inputTooLarge length limit, .diagnosed (.inputTooLarge length limit)⟩

/-- The text does not begin with a quote; no position is given. -/
def invalidLeading : ParseError :=
  ⟨.invalidLeading none, .diagnosed .invalidLeadingCharacters⟩

def invalidTrailing (position : Nat) (span : Span) : ParseError :=
  ⟨.invalidTrailing (some position), .diagnosed (.invalidTrailingCharacters position span)⟩

def invalidEscape (position : Nat) (span : Span) : ParseError :=
  ⟨.invalidEscape (some position), .diagnosed (.invalidEscapeCharacter position span)⟩

end ParseError

/-- Errors that a handler may raise and that are no parse errors. -/
inductive HandlerError where
  | value (message : String)
  | lookup (message : String)
  | runtime (message : String)
  /-- Something was looked up that its catalogue does not hold. -/
  | catalogue (error : CatalogueError)
  deriving DecidableEq, Repr

def HandlerError.message : HandlerError → String
  | value message | lookup message | runtime message => message
  | catalogue error => error.message

/-- What ends a handler, and with it the parse, before its time. -/
inductive Fault where
  | parse (error : ParseError)
  | handler (error : HandlerError)
  | stepLimit
  deriving DecidableEq, Repr

def Fault.message : Fault → String
  | parse error => error.message
  | handler error => error.message
  | stepLimit => "step limit"

end CharMachine
