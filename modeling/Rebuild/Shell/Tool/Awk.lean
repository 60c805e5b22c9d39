import Rebuild.Shell.Awk.Running

/-!
# Working on records

`awk` runs a record program. Its words are options, the program unless an option names files that hold it,
and operands, which name files or assign to variables.
-/

namespace Rebuild.Shell.Tool

open Run
open Rebuild.Shell.Awk (Act Elements Machine Outlet Program Setup Value)

/-- The options of a record program: files that hold it, the separator of fields, assignments, and the words
after the options. -/
structure AwkWords where
  files : List String
  separator : Option String
  assignments : List String
  rest : List String

/-- Reads the options, in at most `n` words. -/
def awkOptions : (n : Nat) → AwkWords → Run AwkWords
  | 0, w => return w
  | n + 1, w => do
    match w.rest with
    | "--" :: rest => return { w with rest := rest }
    | word :: rest =>
      match word.toList with
      | ['-'] => return w
      | '-' :: letter :: attached =>
        if !(['f', 'F', 'v'].contains letter) then toolFault 2 ("not an option: " ++ word)
        let (argument, rest) ← match attached, rest with
          | [], [] => toolFault 2 ("option -" ++ String.singleton letter ++ " lacks argument")
          | [], argument :: rest => pure (argument, rest)
          | _, _ => pure (String.ofList attached, rest)
        let w := { w with rest := rest }
        awkOptions n (match letter with
          | 'f' => { w with files := w.files ++ [argument] }
          | 'F' => { w with separator := some argument }
          | _ => { w with assignments := w.assignments ++ [argument] })
      | _ => return w
    | [] => return w

/-- The machine at the beginning, with operands and surroundings. -/
def startMachine (p : Program) (operands : List String) (vars : List (String × String)) : Machine :=
  let elements (entries : List (Elements.Index × String)) : Elements :=
    entries.foldl (fun e (index, text) => e.set index (.input text)) .empty
  let known : List (String × Value) :=
    [("FS", .text " "), ("OFS", .text " "), ("ORS", .text "\n"), ("RS", .text "\n"),
      ("SUBSEP", .text "\x1c"), ("CONVFMT", .text "%.6g"), ("OFMT", .text "%.6g"), ("NR", .number 0),
      ("FNR", .number 0), ("ARGC", .ofNat operands.length), ("FILENAME", .unset)]
  { globals := known.foldl (fun m (name, v) => m.insert name v) ∅
    arrays := #[elements (operands.zipIdx.map fun (word, i) => (.number i, word)),
      elements (vars.map fun (name, value) => (.text name, value))] ++
      Array.replicate (p.arrays.length - 2) .empty
    free := [], locals := [], record := "", fields := #[], isSplit := true, isStale := false
    outlets := [⟨Act.outputName, false, 1, [], 0, none⟩], inlets := [], main := none, next := 1
    wasOpened := false, nextDescriptor := 64, searches := ∅
    ranges := Array.replicate p.rules.length false, seed := .number 0, random := 0, status := 0 }

/-- Runs a record program. -/
def awk : Tool := fun become words => do
  let given ← awkOptions words.length ⟨[], none, [], words⟩
  let assignments ← given.assignments.mapM fun word => do
    match Act.assignment? word with
    | some assignment => return assignment
    | none => toolFault 2 ("improper assignment: -v " ++ word)
  let texts ← given.files.mapM fun path => do
    match ← readOperand path with
    | .ok text => return String.ofList text
    | .error fault => toolFault 2 ("cannot open \"" ++ path ++ "\" (" ++ fault.message ++ ")")
  let (text, operands) ← match given.files, given.rest with
    | [], [] => exit 0
    | [], text :: operands => pure (text, operands)
    | _, operands => pure ("\n".intercalate texts, operands)
  let program ← match Program.read text with
    | .ok program => pure program
    | .error fault => toolFault 2 fault.message
  let vars := (← process).vars.toList.filterMap fun (name, v) =>
    if v.isExported then v.value.map (name, ·) else none
  let name := (← process).name
  let setup : Setup :=
    { program := program
      arrayIds := program.arrays.zipIdx.foldl (fun m (name, i) => m.insert name i) ∅
      become := become }
  let run : Act Nat := do
    given.separator.forM fun text => Act.assign "FS" text
    assignments.forM fun (name, value) => Act.assign name value
    Act.runProgram setup
  let (found, _) ← run.run.run (startMachine program (name :: operands) vars)
  return found.toOption.getD 2

def mawk : Tool := awk

end Rebuild.Shell.Tool
