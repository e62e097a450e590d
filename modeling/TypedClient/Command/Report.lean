import TypedClient.Command.Basic
import TypedClient.Run.Basic
import TypedClient.Terminal.Line
import TypedClient.Text.Grouped

/-!
What is printed about runs, in colour. A quiet report keeps to the runs that are aborted; a verbose
one shows every warning, others only those for which output is missing.
-/

namespace TypedClient

open Text

/-- How much is reported. -/
inductive Detail
  | quiet
  | standard
  | verbose
  deriving DecidableEq, Repr

def GenerateOptions.detail (options : GenerateOptions) : Detail :=
  if options.isQuiet then .quiet else if options.isVerbose then .verbose else .standard

structure Report where
  palette : Palette
  detail : Detail
  deriving DecidableEq, Repr

namespace Report

def output (text : Text) : Line := ⟨.output, text⟩

/-- Lines that a quiet report leaves out. -/
def unlessQuiet (report : Report) (lines : List Line) : List Line :=
  if report.detail = .quiet then [] else lines

/-- Two texts, each in the colour of its role. -/
def pair (report : Report) (first second : Role × Text) : Text :=
  report.palette.paint first.1 first.2 ++ " " ++ report.palette.paint second.1 second.2

/-- A message under the time at which it is printed. -/
def stamped (report : Report) (time : Text) (role : Role) (message : Text) : Line :=
  output (report.pair (.timestamp, '[' :: time ++ [']']) (role, message))

def progress (report : Report) (time message : Text) : List Line :=
  report.unlessQuiet [report.stamped time .progress message]

def loading (report : Report) (time config : Text) : List Line :=
  report.progress time ("Loading config from: " ++ config)

def generating (report : Report) (time server input : Text) : List Line :=
  report.progress time ("Generating '" ++ server ++ "' from: " ++ input)

def wrote (report : Report) (time : Text) (count : Nat) (folder : Text) : List Line :=
  report.progress time ("Wrote " ++ grouped count ++ " files to: " ++ folder)

def finished (report : Report) (time : Text) (count : Nat) : List Line :=
  report.unlessQuiet
    [output [],
      report.stamped time .success ("Successfully generated " ++ grouped count ++ " server(s)")]

/-- A figure under its label, set in under the messages. -/
def figure (report : Report) (label value : Text) : Line :=
  output (List.replicate 12 ' ' ++ report.pair (.label, label) (.value, value))

/-- Numbers, each in front of what it counts. -/
def counts (parts : List (Nat × Text)) : Text :=
  join ", " (parts.map fun (count, noun) => grouped count ++ " " ++ noun)

def figuresOf (stats : Stats) : List (Text × Text) :=
  [("Paths:",
      counts [(stats.pathsDiscovered, "discovered"), (stats.pathsExcluded, "excluded")]),
    ("Schemas:", grouped stats.schemasDiscovered),
    ("Operations:", grouped stats.operationsExtracted),
    ("Tags:", grouped stats.tagsClassified),
    ("Aliases generated:", grouped stats.aliasesGenerated),
    ([],
      counts [(stats.paramsAliases, "params"), (stats.bodyAliases, "body"),
        (stats.responseAliases, "response"), (stats.payloadAliases, "RO")]),
    ([], counts [(stats.propertyAliases, "property aliases")]),
    ("Endpoints:", grouped stats.endpointsGenerated),
    ("Wrappers:", grouped stats.wrappersGenerated),
    ("Hooks:",
      counts [(stats.queryHooksGenerated, "queries"), (stats.mutationHooksGenerated, "mutations")])]

def warningCount (stats : Stats) : List (Text × Text) :=
  if stats.warnings = [] then [] else [("Warnings:", grouped stats.warnings.length)]

def warningLine (report : Report) (warning : Warning) : Line :=
  let label : Text := if warning.isSkippedItem then "Skipped:" else "Warning:"
  ⟨.errors, report.pair (warning.role, label) (.value, warning.text)⟩

/-- The warnings to be shown, after an empty line. -/
def warningLines (report : Report) (warnings : List Warning) : List Line :=
  match warnings.filter fun warning => warning.isSkippedItem || report.detail = .verbose with
  | [] => []
  | shown => output [] :: shown.map report.warningLine

def statistics (report : Report) (stats : Stats) : List Line :=
  report.unlessQuiet
    ((figuresOf stats ++ warningCount stats).map
        (fun (label, value) => report.figure label value) ++
      report.warningLines stats.warnings)

/-- What went wrong at a step. -/
def failureLine (report : Report) (opening : Text) (failure : StepFailure) : Line :=
  ⟨.errors,
    report.pair (.failure, opening ++ " '" ++ failure.step.name ++ "':") (.value, failure.error)⟩

def failedSteps (summary : RunSummary) : List (Text × Text) :=
  if summary.isClean then [("Steps failed:", "none")] else []

def disabledSteps (summary : RunSummary) : List (Text × Text) :=
  if summary.skipped = [] then []
  else [("Steps disabled:", join ", " (summary.skipped.map Step.name))]

def stepFigures (summary : RunSummary) : List (Text × Text) :=
  ("Steps succeeded:", grouped summary.successes.length) ::
    (failedSteps summary ++ disabledSteps summary)

def summary (report : Report) (summary : RunSummary) : List Line :=
  match summary.aborted with
  | some failure => [report.failureLine "Aborted at" failure]
  | none =>
    report.unlessQuiet
      ((stepFigures summary).map (fun (label, value) => report.figure label value) ++
        summary.failures.map (report.failureLine "Failed"))

end Report

end TypedClient
