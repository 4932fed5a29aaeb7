/-
# Running a command

A monitor of the local node is started on a mesh.  The local node announces itself, then the script
is played; after each of these everything settles.  Every difference is one line of output.  At the
end the view is compared with the mesh, and it is a failure if it has not converged.

Files and random numbers come from outside: what a command does is a function of the contents of files
and of a generator.
-/

import MeshView.CommandLine.Help
import MeshView.Diff.Frame
import MeshView.Document.Diff
import MeshView.Document.Frame
import MeshView.Document.Load
import MeshView.Fleet
import MeshView.Json.Render
import MeshView.Json.Sorted
import MeshView.Mesh.Random

namespace MeshView
namespace CommandLine

/-- What a program leaves behind: its exit code and what it printed. -/
structure Outcome where
  exit : Nat
  out : List String
  err : List String
deriving DecidableEq

def failed (message : String) : Outcome := ⟨1, [], ["Error: " ++ message]⟩

/-- The line for a difference. -/
def Format.line? : Format → Diff → Option String
  | .json, d => some d.toJson.sorted.toText
  | .wire, d => some d.frame.toJson.sorted.toText
  | .quiet, _ => none

/-- The name of the only monitor. -/
def monitorName : String := "main"

/-- The fleet of one monitor after the announcement and the script. -/
def watch (stage : Stage) (latency : Nat) (settings : Settings) : Fleet :=
  let start := (Fleet.on stage.mesh latency).start monitorName stage.localId settings
  let announced := (stage.mesh.localView stage.localId).foldl Fleet.emit start
  (announced.settle.playAll stage.events).1

def fetchLine (b : Backfill) : String :=
  s!"Fetches: {b.issued} issued, {b.failed} failed, {b.dropped} dropped"

/-- What is printed about a fleet at the end. -/
def report (format : Format) (f : Fleet) : Outcome :=
  let out := f.log.filterMap fun message => format.line? message.2
  match f.member? monitorName with
  | none => ⟨1, out, []⟩
  | some m =>
    let summary := f.convergence m
    let err := summary.lines ++ ["", fetchLine m.backfill]
    if summary.converged then ⟨0, out, err⟩
    else ⟨1, out, err ++ ["Error: local view did not converge to the reachable ground truth"]⟩

/-- What a command is run on. -/
def stage {σ : Type} (generator : Generator σ) (file : String → Option ByteArray) :
    Command → Except String Stage
  | .run path =>
    match Scenario.load (file path) with
    | .error _ => .error s!"loading scenario {path}"
    | .ok scenario =>
      match scenario.build with
      | .error fault => .error fault.message
      | .ok stage => .ok stage
  | .random nodes extraLinks seed =>
    let state := generator.seeded (UInt64.ofNat seed)
    let mesh := (Mesh.random generator.draw nodes extraLinks state).1
    match mesh.ids with
    | [] => .error "--nodes must be at least 1"
    | localId :: _ => .ok ⟨mesh, localId, []⟩

def settings (file : String → Option ByteArray) : Option String → Except String Settings
  | none => .ok Settings.standard
  | some path =>
    match Settings.load (file path) with
    | .error _ => .error s!"loading config {path}"
    | .ok s => .ok s

/-- Runs what was asked for; `file` gives the contents of files. -/
def Request.run {σ : Type} (r : Request) (generator : Generator σ)
    (file : String → Option ByteArray) : Outcome :=
  match stage generator file r.command with
  | .error message => failed message
  | .ok stage =>
    match settings file r.config with
    | .error message => failed message
    | .ok settings => report r.format (watch stage r.latency settings)

/-- The files that are read. -/
def Request.files (r : Request) : List String :=
  (match r.command with
    | .run path => [path]
    | .random _ _ _ => []) ++ r.config.toList

/-! ## Nothing to do -/

def versionLine : String := "linkstate-sim 0.1.0"

def Stop.outcome : Stop → Outcome
  | .help topic extent => ⟨0, helpLines topic extent, []⟩
  | .version => ⟨0, [versionLine], []⟩
  | .misuse message => ⟨2, [], ["error: " ++ message]⟩

/-- The whole program as a function of the generator, of its arguments and of the files. -/
def programWith {σ : Type} (generator : Generator σ) (args : List String)
    (file : String → Option ByteArray) : Outcome :=
  match read args with
  | .error stop => stop.outcome
  | .ok request => request.run generator file

/-- The program that draws with the congruential generator. -/
def program (args : List String) (file : String → Option ByteArray) : Outcome :=
  programWith .congruential args file

end CommandLine
end MeshView
