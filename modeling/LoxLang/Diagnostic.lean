/-!
# Diagnostics

One reported problem of any phase, and the text in which it is reported.
-/

namespace LoxLang

/-- The phase that found a problem. Hosts may report phases of their own. -/
inductive Phase where
  | scanning
  | parsing
  | running
  | other (name : String)
deriving DecidableEq, Repr

namespace Phase

/-- The name of the kind of problem that a phase reports. -/
def name : Phase → String
  | scanning => "ScanError"
  | parsing => "ParseError"
  | running => "RuntimeError"
  | other name => name

/-- The phase that reports problems of this name. -/
def ofName (name : String) : Phase :=
  if name = "ScanError" then scanning
  else if name = "ParseError" then parsing
  else if name = "RuntimeError" then running
  else other name

/-- A phase that was found by a name reports its problems under that name. -/
theorem name_ofName (name : String) : (ofName name).name = name := by
  unfold ofName
  split
  · simp_all [Phase.name]
  · split
    · simp_all [Phase.name]
    · split <;> simp_all [Phase.name]

end Phase

/-- A reported problem: the phase that found it, its line, what is wrong and, where known, next to
which token (`at end`, `at 'x'`, or nothing). -/
structure Diagnostic where
  phase : Phase
  line : Int
  message : String
  place : String
deriving DecidableEq, Repr

/-- The text of a diagnostic. A runtime error gives its message first and its line on a second
line; the others are one line, with the place if there is one. -/
def Diagnostic.text (diagnostic : Diagnostic) : String :=
  let line := toString diagnostic.line
  if diagnostic.phase = .running then diagnostic.message ++ "\n[line " ++ line ++ "]"
  else
    let place := if diagnostic.place = "" then "" else " " ++ diagnostic.place
    "[line " ++ line ++ "] Error" ++ place ++ ": " ++ diagnostic.message

end LoxLang
