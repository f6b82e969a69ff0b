import Addon.Build.Builder
import Addon.CommandLine.Arguments

/-!
# The command

Builds the addon that the arguments name and tells what was made, or why nothing was.
-/

namespace Addon.CommandLine

open Build File

/-- The settings that the arguments ask for, when one stands in a directory. -/
def Arguments.settings (a : Arguments) (standing : Path) : Attempt Settings :=
  let project := Path.ofText a.project
  if Tree.hasNull project then .error (.file (.nullCharacter .resolve))
  else
    let base : Settings := { projectDir := project.resolve standing }
    .ok { base with
      minify := a.minify
      package := !a.dev
      languageTags := if a.langs.isEmpty then base.languageTags else a.langs
      aceSources := if a.sources.isEmpty then base.aceSources else a.sources }

/-- What came of a command: its exit code, unless it failed in a way that it does not report itself,
and what it wrote. -/
structure Report where
  exit : Except Failure Nat
  stdout : String := ""
  stderr : String := ""

/-- What is told about a build. -/
def summary (r : Result) : String :=
  let lines := [s!"Built addon '{r.manifest.id}' {r.manifest.version}: {r.exportDir.toText}"] ++
    r.written.map (fun name => "- " ++ (r.exportDir.join name).toText) ++
    match r.package with
    | some p => ["Packaged: " ++ p.toText]
    | none => []
  String.join (lines.map (· ++ "\n"))

/-- Builds with settings and tells about it. -/
def runBuild (settings : Settings) (s : Session) : Report × Session :=
  match build settings passthrough s with
  | .ok result s => ({ exit := .ok 0, stdout := summary result }, s)
  | .error (.complaint c) s =>
    ({ exit := .ok 1, stderr := "Build failed: " ++ c.message ++ "\n" }, s)
  | .error f s => ({ exit := .error f }, s)

/-- Runs the command. -/
def run (argv : List String) (standing : Path) (s : Session) : Report × Session :=
  match parse argv with
  | .error .help => ({ exit := .ok 0, stdout := helpText }, s)
  | .error stop => ({ exit := .ok 2, stderr := stop.report }, s)
  | .ok a =>
    match a.settings standing with
    | .ok settings => runBuild settings s
    | .error f => ({ exit := .error f }, s)

end Addon.CommandLine
