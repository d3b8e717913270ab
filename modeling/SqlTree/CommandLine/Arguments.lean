import SqlTree.Text.Split

/-!
# Arguments

Command-line arguments taken apart into options, with or without a value, and other arguments.
-/

namespace SqlTree.CommandLine

/-- An option that a command takes. -/
structure Flag where
  long : String
  short : Option Char := none
  /-- Whether a value goes with it. -/
  valued : Bool := false
  /-- Whether nothing behind it is read. -/
  last : Bool := false
  deriving DecidableEq, Repr

/-- What an argument was taken for. -/
inductive Token where
  | option (long : String) (value : Option String)
  | plain (text : String)
  deriving DecidableEq, Repr

/-- Whether an argument cannot be an option. -/
def isOperand (a : String) : Bool := a == "-" || a.toList.head? != some '-'

/-- Options in short form behind one dash, and the value that the last of them may lack. -/
def cluster (flags : List Flag) : List Char → Option (List Token × Option String)
  | [] => some ([], none)
  | c :: cs => do
    let f ← flags.find? fun f => f.short == some c
    if f.valued then
      match cs with
      | [] => return ([], some f.long)
      | '=' :: v => return ([.option f.long (some (.ofList v))], none)
      | v => return ([.option f.long (some (.ofList v))], none)
    else if f.last then return ([.option f.long none], none)
    else
      let (tokens, lacking) ← cluster flags cs
      return (.option f.long none :: tokens, lacking)

/-- An option in long form, with a value behind a sign of equality or without, and the option if its
value is still to come. -/
def longOption (flags : List Flag) (cs : List Char) : Option (List Token × Option String) := do
  let (name, value) := match Text.splitOnce? ['='] cs with
    | some (name, value) => (String.ofList name, some (String.ofList value))
    | none => (.ofList cs, none)
  let f ← flags.find? fun f => f.long == name
  match f.valued, value with
  | true, some v => return ([.option f.long (some v)], none)
  | true, none => return ([], some f.long)
  | false, none => return ([.option f.long none], none)
  | false, some _ => none

/-- The options that one argument stands for, and the option if its value is still to come. -/
def options (flags : List Flag) (a : String) : Option (List Token × Option String) :=
  match a.toList with
  | '-' :: '-' :: cs => longOption flags cs
  | _ :: cs => cluster flags cs
  | [] => none

/-- Whether nothing is to be read behind a token. -/
def isLast (flags : List Flag) : Token → Bool
  | .option long _ => flags.any fun f => f.last && f.long == long
  | .plain _ => false

/-- The tokens of the arguments.  `lacking` is the option whose value comes next; behind two dashes
there are no more options. -/
def tokens (flags : List Flag) (closed : Bool) (lacking : Option String) :
    List String → Option (List Token)
  | [] => if lacking.isSome then none else some []
  | a :: rest =>
    match lacking with
    | some f =>
      if isOperand a then (tokens flags closed none rest).map (.option f (some a) :: ·) else none
    | none =>
      if closed || isOperand a then (tokens flags closed none rest).map (.plain a :: ·)
      else if a = "--" then tokens flags true none rest
      else do
        let (found, lacking) ← options flags a
        if found.any (isLast flags) then return found
        return found ++ (← tokens flags closed lacking rest)

namespace Token

variable (ts : List Token)

def plains : List String := ts.filterMap fun
  | .plain s => some s
  | .option .. => none

def longs : List String := ts.filterMap fun
  | .plain _ => none
  | .option long _ => some long

def has (long : String) : Bool := (longs ts).contains long

def value? (long : String) : Option String := ts.findSome? fun
  | .option l v => if l = long then v else none
  | .plain _ => none

/-- Whether no option is given twice. -/
def areDistinct : Bool := (longs ts).Nodup

end Token

end SqlTree.CommandLine
