import CharMachine.Span
import CharMachine.Text
import CharMachine.Literal.Hidden
import CharMachine.Literal
import CharMachine.Catalogue
import CharMachine.Json
import CharMachine.Diagnostic.Basic
import CharMachine.Diagnostic.Standard
import CharMachine.Diagnostic.Layout
import CharMachine.Fault
import CharMachine.Limits
import CharMachine.Machine
import CharMachine.Event
import CharMachine.Program
import CharMachine.Table
import CharMachine.Parser
import CharMachine.Quoted.Basic
import CharMachine.Quoted.Grammar
import CharMachine.Copy
import CharMachine.Truncation
import CharMachine.Script.Instr
import CharMachine.Script.Meaning
import CharMachine.Script.Session
import CharMachine.Proofs.Loop
import CharMachine.Proofs.Observation
import CharMachine.Proofs.History
import CharMachine.Proofs.Between
import CharMachine.Proofs.Course
import CharMachine.Proofs.Quoted.Shape
import CharMachine.Proofs.Quoted.Verdict
import CharMachine.Proofs.Quoted.Acceptance
import CharMachine.Proofs.Quoted.Preimage
import CharMachine.Proofs.Provenance
import CharMachine.Proofs.Journal
import CharMachine.Proofs.Windowed
import CharMachine.Proofs.Calls
import CharMachine.Proofs.Account
import CharMachine.Proofs.Quoted.Composition
import CharMachine.Proofs.Quoted.Extension
import CharMachine.Proofs.Tables
import CharMachine.Proofs.Unnested
import CharMachine.Proofs.Dispatch
import CharMachine.Proofs.Places
import CharMachine.Proofs.Truncation
import CharMachine.Proofs.Json.Completeness
import CharMachine.Proofs.Json.Writer
import CharMachine.Proofs.JsonLayout
import CharMachine.Proofs.Quoted.CallCount
import CharMachine.Proofs.AnnotatedLayout
import CharMachine.Proofs.Quoted.Report
import CharMachine.Proofs.Stopping
import CharMachine.Proofs.Limits
import CharMachine.Proofs.Spans
import CharMachine.Proofs.Paragraphs
import CharMachine.Proofs.Annotations
import CharMachine.Proofs.Clipping
import CharMachine.Proofs.Copy
import CharMachine.Proofs.Quoted.Lookbehind
