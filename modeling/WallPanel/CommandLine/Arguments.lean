import WallPanel.CommandLine.Values

/-!
# Arguments

What is asked for on the command line: a command and its options, each with a value. An option may
be given as `--name value` or as `--name=value`; of an option that is given more than once the last
value counts, except for ids, which all count.

* `Request`: a command with its options.
* `Invocation.ofArguments?`: what a list of arguments asks for; none if it is not understood.
-/

namespace WallPanel

/-- A command with its options. -/
inductive Request where
  /-- Write the model as data, to a file or on the screen. -/
  | parse (input : String) (output : Option String)
  /-- Write a picture. -/
  | preview (input output : String)
  /-- Write a layered drawing. -/
  | draw (input output : String) (units options : Option String)
  /-- Report cuts, unhandled statements and issues. -/
  | check (input : String) (options : Option String)
  | translate (input kind : String) (ids : List Int) (axis : String) (distance : Float)
  | delete (input kind : String) (ids : List Int)

namespace Request

/-- The document of a request. -/
def input : Request → String
  | parse input _ => input
  | preview input _ => input
  | draw input .. => input
  | check input _ => input
  | translate input .. => input
  | delete input .. => input

/-- The options file of a request. -/
def options : Request → Option String
  | draw _ _ _ options => options
  | check _ options => options
  | _ => none

/-- The files that have to be there. -/
def reads (r : Request) : List String :=
  r.options.toList ++ [r.input]

end Request

/-- What the command line asks for. -/
structure Invocation where
  /-- Whether notes are shown as well as warnings. -/
  verbose : Bool
  request : Request

/-! ## Options -/

/-- An argument that gives its value after an equals sign: the name and the value. -/
def splitOption (arg : String) : String × Option String :=
  let cs := arg.toList
  match cs.dropWhile (· ≠ '=') with
  | [] => (arg, none)
  | _ :: value => (String.ofList (cs.takeWhile (· ≠ '=')), some (String.ofList value))

/-- The options that arguments give, if all of them have a known name and a value. Two dashes end
the options; nothing may follow them. -/
def readOptions? (names : List String) : List String → Option (List (String × String))
  | [] => some []
  | [arg] =>
    match splitOption arg with
    | (name, some value) => if names.contains name then some [(name, value)] else none
    | (_, none) => if arg = "--" then some [] else none
  | arg :: next :: rest =>
    match splitOption arg with
    | (name, some value) =>
      if names.contains name then (readOptions? names (next :: rest)).map ((name, value) :: ·)
      else none
    | (name, none) =>
      if names.contains name then (readOptions? names rest).map ((name, next) :: ·) else none

/-- The value of an option: the last that is given. -/
def lastOption? (options : List (String × String)) (name : String) : Option String :=
  options.reverse.lookup name

/-- The ids that are asked for, at least one. -/
def readIds? (options : List (String × String)) : Option (List Int) := do
  let ids ← (options.filter (·.1 = "--id")).mapM fun (_, text) => Argument.int? text
  if ids.isEmpty then none else return ids

/-! ## Commands -/

/-- The request of a command with its arguments. -/
def Request.ofArguments? (command : String) (args : List String) : Option Request :=
  match command with
  | "parse" => do
    let options ← readOptions? ["--inp", "--out"] args
    return .parse (← lastOption? options "--inp") (lastOption? options "--out")
  | "preview" => do
    let options ← readOptions? ["--inp", "--out"] args
    return .preview (← lastOption? options "--inp") (← lastOption? options "--out")
  | "export-dxf" => do
    let options ← readOptions? ["--inp", "--out", "--units", "--options"] args
    return .draw (← lastOption? options "--inp") (← lastOption? options "--out")
      (lastOption? options "--units") (lastOption? options "--options")
  | "check" => do
    let options ← readOptions? ["--inp", "--options"] args
    return .check (← lastOption? options "--inp") (lastOption? options "--options")
  | "translate" => do
    let options ← readOptions? ["--inp", "--kind", "--id", "--axis", "--mm"] args
    return .translate (← lastOption? options "--inp") (← lastOption? options "--kind")
      (← readIds? options) (← lastOption? options "--axis")
      (← (lastOption? options "--mm").bind Argument.float?)
  | "delete" => do
    let options ← readOptions? ["--inp", "--kind", "--id"] args
    return .delete (← lastOption? options "--inp") (← lastOption? options "--kind")
      (← readIds? options)
  | _ => none

namespace Invocation

/-- Whether an argument asks for notes: the short form may be repeated. -/
def isVerbose (arg : String) : Bool :=
  arg = "--verbose" ||
    (match arg.toList with
      | '-' :: 'v' :: cs => cs.all (· = 'v')
      | _ => false)

/-- What a list of arguments asks for. -/
def ofArguments? : List String → Option Invocation
  | [] => none
  | arg :: args =>
    if isVerbose arg then (ofArguments? args).map fun i => { i with verbose := true }
    else if arg = "--" then
      match args with
      | [] => none
      | command :: rest => (Request.ofArguments? command rest).map (⟨false, ·⟩)
    else (Request.ofArguments? arg args).map (⟨false, ·⟩)

end Invocation

end WallPanel
