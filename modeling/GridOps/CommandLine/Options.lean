import GridOps.CommandLine.Usage

/-!
Arguments of a program that takes options with one value each.

An option is given by its name or its letter.  Its value stands in the same argument, behind an
equals sign or right behind the letter, or is the next argument, unless that starts with a hyphen
and is longer.  After the argument `--`, no argument is an option or a value.
-/
namespace GridOps

inductive ValueRule
  | anything
  /-- One of some names, in letters of either case. -/
  | oneOf (names : List String)
  /-- A value that a check lets pass, or else gives a reason against. -/
  | checked (check : List Char → Except String Unit)

structure OptionSpec where
  name : String
  letter? : Option Char
  default? : Option String
  rule : ValueRule

structure OptionUse where
  option : String
  value? : Option String
deriving DecidableEq, Repr

inductive Argument
  | endOfOptions
  | option (name : String) (value? : Option String)
  | unknown (shown : String)
deriving DecidableEq, Repr

namespace CommandLine

def sameName (a b : String) : Bool := a.toList.map Char.toLower == b.toList.map Char.toLower

def named? (options : List OptionSpec) (name : String) : Option OptionSpec :=
  options.find? (·.name == name)

def lettered? (options : List OptionSpec) (letter : Char) : Option OptionSpec :=
  options.find? (·.letter? == some letter)

/-- A value in the same argument, without the equals signs before it. -/
def attached (cs : List Char) : Option String :=
  if cs.isEmpty then none else some (String.ofList (cs.dropWhile (· == '=')))

def classify (options : List OptionSpec) (arg : String) : Argument :=
  match arg.toList with
  | ['-', '-'] => .endOfOptions
  | '-' :: '-' :: cs =>
    let body := cs.dropWhile (· == '-')
    let name := String.ofList (body.takeWhile (· != '='))
    match named? options name with
    | some o => .option o.name (attached (body.dropWhile (· != '=')))
    | none => .unknown s!"--{name}"
  | '-' :: c :: cs =>
    match lettered? options c with
    | some o => .option o.name (attached cs)
    | none => .unknown (String.ofList ['-', c])
  | _ => .unknown arg

def isValue (arg : String) : Bool :=
  match arg.toList with
  | '-' :: _ :: _ => false
  | _ => true

/-- The uses of options among the arguments, up to the first argument that is none. -/
def scan (options : List OptionSpec) : List String → Except UsageError (List OptionUse)
  | [] => .ok []
  | arg :: rest =>
    match classify options arg with
    | .endOfOptions =>
      match rest with
      | [] => .ok []
      | extra :: _ => .error (.unknown extra)
    | .unknown shown => .error (.unknown shown)
    | .option name (some value) => do return ⟨name, some value⟩ :: (← scan options rest)
    | .option name none =>
      match rest with
      | [] => .ok [⟨name, none⟩]
      | value :: rest' =>
        if isValue value then do return ⟨name, some value⟩ :: (← scan options rest')
        else do return ⟨name, none⟩ :: (← scan options (value :: rest'))
termination_by args => args.length
decreasing_by all_goals simp only [List.length_cons]; omega

def checkValue (o : OptionSpec) (value : String) : Except UsageError Unit :=
  match o.rule with
  | .anything => .ok ()
  | .oneOf names =>
    if names.any (sameName value) then .ok () else .error (.notListed o.name value)
  | .checked check => (check value.toList).mapError (.invalid o.name)

/-- The value of an option: the one given, or else its default.  An option that was given must have
a value then, and may be given only once. -/
def settle (uses : List OptionUse) (o : OptionSpec) : Except UsageError (Option String) := do
  let own := uses.filter (·.option == o.name)
  let values := own.filterMap (·.value?)
  if !own.isEmpty && values.isEmpty && o.default?.isNone then throw (.noValue o.name)
  values.forM (checkValue o)
  if 1 < own.length then throw (.repeated o.name)
  return values.head? <|> o.default?

def leftOpen (uses : List OptionUse) (o : OptionSpec) : Bool :=
  uses.getLast?.any fun u => u.option == o.name && u.value?.isNone

/-- The values of the options that have one.  An option at the very end is looked at first. -/
def values (options : List OptionSpec) (args : List String) :
    Except UsageError (List (String × String)) := do
  let uses ← scan options args
  (options.filter (leftOpen uses)).forM fun o => do
    let _ ← settle uses o
  options.filterMapM fun o => do
    return (← settle uses o).map fun value => (o.name, value)

end CommandLine
end GridOps
