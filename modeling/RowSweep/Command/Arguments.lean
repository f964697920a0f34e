import RowSweep.File.Path

/-!
This module contains the command line: its two commands and their options.
-/

namespace RowSweep

inductive Format where
  | text
  | json
  deriving DecidableEq

def Format.ofName? : String → Option Format
  | "text" => some text
  | "json" => some json
  | _ => none

def levelNames : List (List Char × Nat) :=
  [("CRITICAL".toList, 50), ("FATAL".toList, 50), ("ERROR".toList, 40), ("WARNING".toList, 30),
   ("WARN".toList, 30), ("INFO".toList, 20), ("DEBUG".toList, 10), ("NOTSET".toList, 0)]

def capital (c : Char) : Char :=
  match c with
  | 'ı' => 'I'
  | 'ſ' => 'S'
  | c => c.toUpper

def level? (name : String) : Option Nat :=
  levelNames.lookup (name.toList.map capital)

structure Inputs where
  matrixFile : Path
  thresholdsFile : Option Path
  format : Format
  deriving DecidableEq

inductive Command where
  | solve (inputs : Inputs) (trace : Bool) (level : Nat)
  | check (inputs : Inputs)
  deriving DecidableEq

namespace Command

def sources : Command → Inputs
  | solve inputs .. => inputs
  | check inputs => inputs

inductive ArgumentFault where
  | usage
  | unusableName
  deriving DecidableEq

structure Written where
  options : List (String × String) := []
  trace : Bool := false
  files : List String := []

def splitOption (arg : List Char) : String × Option String :=
  match arg.dropWhile (· != '=') with
  | _ :: value => (String.ofList (arg.takeWhile (· != '=')), some (String.ofList value))
  | [] => (String.ofList arg, none)

def isOption (arg : String) : Bool :=
  match arg.toList with
  | '-' :: _ :: _ => true
  | _ => false

def written? (valued flags : List String) (done : Written) : List String → Option Written
  | [] => some done
  | arg :: rest =>
    if arg = "--" then some { done with files := done.files ++ rest }
    else if isOption arg then
      match splitOption arg.toList with
      | (name, some value) =>
        if valued.contains name then
          written? valued flags { done with options := (name, value) :: done.options } rest
        else none
      | (name, none) =>
        if valued.contains name then
          match rest with
          | value :: rest =>
            written? valued flags { done with options := (name, value) :: done.options } rest
          | [] => none
        else if flags.contains name then written? valued flags { done with trace := true } rest
        else none
    else written? valued flags { done with files := done.files ++ [arg] } rest

def value? (w : Written) (option : String) : Option String :=
  w.options.lookup option

def fileName (text : String) : Except ArgumentFault Path :=
  match Path.ofText? text with
  | some file => .ok file
  | none => .error .unusableName

/--
Reads the format and the names of the files. The options are read in the order in which they are first
given, and then the files, of which there has to be one.
-/
def inputs (w : Written) : Except ArgumentFault Inputs := do
  let names := (w.options.reverse.map (·.1)).eraseDups
  let (format, thresholdsFile) ← names.foldlM (fun (format, thresholdsFile) name =>
    match name, value? w name with
    | "--format", some value =>
      match Format.ofName? value with
      | some format => return (format, thresholdsFile)
      | none => throw .usage
    | "--thresholds", some value => return (format, some (← fileName value))
    | _, _ => return (format, thresholdsFile)) (Format.text, none)
  match w.files with
  | [] => throw .usage
  | file :: others =>
    let matrixFile ← fileName file
    if others.isEmpty then return ⟨matrixFile, thresholdsFile, format⟩ else throw .usage

def require (found : Option α) : Except ArgumentFault α :=
  match found with
  | some x => .ok x
  | none => .error .usage

def named (name : String) (args : List String) : Except ArgumentFault Command :=
  match name with
  | "solve" => do
    let w ← require (written? ["--format", "--thresholds", "--log-level"] ["--trace"] {} args)
    let inputs ← inputs w
    let level ← require (level? ((value? w "--log-level").getD "WARNING"))
    return solve inputs w.trace level
  | "check" => do
    let w ← require (written? ["--format", "--thresholds"] [] {} args)
    return check (← inputs w)
  | _ => .error .usage

def ofArguments (args : List String) : Except ArgumentFault Command :=
  match args with
  | "--" :: name :: rest | name :: rest => named name rest
  | [] => .error .usage

end Command

end RowSweep
