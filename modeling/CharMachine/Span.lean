/-!
# Source spans

A span is a half-open range of character offsets together with the one-based line and column of
its start. The bounds that make a span meaningful are fields of the type, so a span that exists is
a valid one; `Span.ofBounds` is the checked way in and names the first bound that fails.
-/

namespace CharMachine

/-- A range of offsets, with the line and column at which it starts. -/
structure Span where
  start : Nat
  stop : Nat
  line : Nat
  column : Nat
  start_le_stop : start ≤ stop
  one_le_line : 1 ≤ line
  one_le_column : 1 ≤ column
  deriving DecidableEq, Repr

/-- The bound that refuses four integers as a span. -/
inductive SpanError where
  | negativeStart (start : Int)
  | stopBeforeStart (start stop : Int)
  | lineBelowOne (line : Int)
  | columnBelowOne (column : Int)
  deriving DecidableEq, Repr

def SpanError.message : SpanError → String
  | .negativeStart start => "SourceSpan.start must be >= 0, got " ++ toString start
  | .stopBeforeStart start stop =>
      "SourceSpan.end (" ++ toString stop ++ ") must be >= start (" ++ toString start ++ ")"
  | .lineBelowOne line => "SourceSpan.line must be >= 1 (1-indexed), got " ++ toString line
  | .columnBelowOne column =>
      "SourceSpan.column must be >= 1 (1-indexed), got " ++ toString column

namespace Span

/-- Checks start, stop, line and column in this order; the first bound that fails is reported. -/
def ofBounds (start stop line column : Int) : Except SpanError Span :=
  if hstart : start < 0 then .error (.negativeStart start)
  else if hstop : stop < start then .error (.stopBeforeStart start stop)
  else if hline : line < 1 then .error (.lineBelowOne line)
  else if hcolumn : column < 1 then .error (.columnBelowOne column)
  else .ok
    { start := start.toNat
      stop := stop.toNat
      line := line.toNat
      column := column.toNat
      start_le_stop := by omega
      one_le_line := by omega
      one_le_column := by omega }

end Span

end CharMachine
