import Rebuild.Graph
import Rebuild.Manifest.Clause
import Rebuild.Path
import Rebuild.Text.Lines

/-!
# Loading a manifest

Statements are carried out in the order in which they are read, each on the graph that those before
it left. An `include` reads another file into the same scope, and `subninja` into a scope of its
own.

Nothing keeps files from including one another, which never ends and takes more and more of the
stack. How much there is of it is the depth to which files can be nested.
-/

namespace Rebuild.Manifest

/-- The variables that a rule may have. -/
def ruleVars : List String :=
  ["command", "depfile", "deps", "description", "dyndep", "generator", "msvc_deps_prefix", "pool",
    "restat", "rspfile", "rspfile_content"]

/-- What statements work on: the graph so far, and the text still to be read. -/
structure Loader where
  graph : Graph
  lexer : Lexer

/-- Steps of loading a manifest. -/
abbrev Load := EStateM Error Loader

/-- The file being read, by its path in messages and the scope that it is read into. -/
structure SourceFile where
  path : String
  scope : ScopeId

/-- How a file is read into a scope by statements of another one. -/
abbrev Nested := String → ScopeId → EStateM Error Graph Unit

/-- Reads from the text. -/
def reading {α : Type} (file : SourceFile) (read : Reading α) : Load α := fun s =>
  match read s.lexer with
  | .ok a lexer => .ok a { s with lexer := lexer }
  | .error fault lexer => .error (.ofFault file.path fault) { s with lexer := lexer }

/-- Fails with a fault at a place of the file. -/
def faultAt {α : Type} (file : SourceFile) (place : Location) (fault : SyntaxFault) : Load α :=
  throw (.malformed file.path place fault)

/-- Asks the graph. -/
def inspect {α : Type} (f : Graph → α) : Load α := fun s => .ok (f s.graph) s

/-- Changes the graph. -/
def change (f : Graph → Graph) : Load Unit :=
  modify fun s => { s with graph := f s.graph }

/-- Changes the graph and takes what that yields. -/
def changeGet {α : Type} (f : Graph → α × Graph) : Load α := fun s =>
  let (a, graph) := f s.graph
  .ok a { s with graph := graph }

/-- Changes the scopes of the graph. -/
def changeScopes (f : Scopes → Scopes) : Load Unit :=
  change fun g => { g with scopes := f g.scopes }

/-- Creates a scope inside another one. -/
def newScope (parent : ScopeId) : Load ScopeId :=
  changeGet fun g =>
    let (id, scopes) := g.scopes.addChild parent
    (id, { g with scopes := scopes })

/-- Reads at most `n` indented bindings, handing each to `step` with its place. -/
def blockUpTo {σ : Type} (file : SourceFile) (step : σ → Location → String → Template → Load σ) :
    (n : Nat) → (acc : σ) → Load σ
  | 0, acc => return acc
  | n + 1, acc => do
    match ← reading file (Lexer.peek .indent) with
    | none => return acc
    | some _ =>
      let place ← reading file Lexer.location
      let (name, value) ← reading file binding
      let acc ← step acc place name value
      blockUpTo file step n acc

/-- Reads the indented bindings that follow. There are at most as many as characters left. -/
def block {σ : Type} (file : SourceFile) (acc : σ)
    (step : σ → Location → String → Template → Load σ) : Load σ := fun s =>
  blockUpTo file step (s.lexer.cursor.rest.length + 1) acc s

/-- The nodes of paths, whose variables are looked up in a scope. -/
def resolvePaths (file : SourceFile) (scope : ScopeId) : List WrittenPath → Load (List NodeId)
  | [] => return []
  | written :: rest => do
    let path ← inspect fun g => g.scopes.eval scope written.template
    if path = "" then faultAt file written.location .emptyPath
    let node ← changeGet fun g => g.ensureNode (Path.canonical path)
    let nodes ← resolvePaths file scope rest
    return node :: nodes

/-- Carries out a `rule` statement. -/
def ruleStatement (file : SourceFile) : Load Unit := do
  let (place, name) ← reading file nameLine
  let taken ← inspect fun g => (g.scopes.get file.scope).rules.contains name
  if name = "phony" ∨ taken then faultAt file place (.duplicateRule name)
  let vars ← block file (∅ : Bindings Template) fun vars varPlace var value => do
    if !ruleVars.contains var then faultAt file varPlace (.unexpectedVariable var)
    return vars.bind var value
  if !vars.contains "command" then faultAt file place (.missingCommand name)
  let rule ← changeGet (·.addRule ⟨name, vars⟩)
  changeScopes fun scopes => (scopes.addRule? file.scope name rule).getD scopes

/-- Carries out a `pool` statement. -/
def poolStatement (file : SourceFile) : Load Unit := do
  let (place, name) ← reading file nameLine
  if (← inspect (·.findPool? name)).isSome then faultAt file place (.duplicatePool name)
  let depth ← block file (none : Option Nat) fun _ varPlace var value => do
    if var ≠ "depth" then faultAt file varPlace (.unexpectedVariable var)
    let text ← inspect fun g => g.scopes.eval file.scope value
    match Numeral.word? 10 (Text.trim text.toList) with
    | some depth => return some depth.toNat
    | none => faultAt file varPlace (.invalidPoolDepth text)
  match depth with
  | none => faultAt file place (.missingPoolDepth name)
  | some depth => change fun g => ((g.addPool? name depth).map (·.2)).getD g

/-- The rule that a build statement names. -/
def recipeOf (file : SourceFile) (line : BuildLine) : Load Recipe := do
  if line.ruleName = "phony" then return .phony
  match ← inspect fun g => g.scopes.findRule? file.scope line.ruleName with
  | some rule => return .rule rule
  | none => faultAt file line.rulePlace (.unknownRule line.ruleName)

/-- Binds the variables that tell a statement's command its explicit inputs and outputs. -/
def bindPaths (scope : ScopeId) (ins outs : List String) (scopes : Scopes) : Scopes :=
  let joined (separator : String) (paths : List String) : Template :=
    .literal (separator.intercalate paths)
  ((scopes.bind scope "in" (joined " " ins)).bind scope "in_newline" (joined "\n" ins)).bind scope
    "out" (joined " " outs)

/-- Carries out a `build` statement whose keyword stands at `place`. -/
def buildStatement (file : SourceFile) (place : Location) : Load Unit := do
  let line ← reading file buildLine
  let recipe ← recipeOf file line
  let scope ← newScope file.scope
  block file () fun _ _ name value => changeScopes (·.bind scope name value)
  let explicitOuts ← resolvePaths file scope line.explicitOuts
  let implicitOuts ← resolvePaths file scope line.implicitOuts
  let explicitIns ← resolvePaths file scope line.explicitIns
  let implicitIns ← resolvePaths file scope line.implicitIns
  let orderOnlyIns ← resolvePaths file scope line.orderOnlyIns
  let validations ← resolvePaths file scope line.validations
  let edge : Edge := ⟨recipe, none, scope, explicitOuts, implicitOuts, explicitIns, implicitIns,
    orderOnlyIns, validations, none⟩
  let ins ← inspect (·.paths explicitIns)
  let outs ← inspect (·.paths explicitOuts)
  changeScopes (bindPaths scope ins outs)
  match ← inspect (·.addEdge edge) with
  | .error out =>
    let path ← inspect fun g => (g.node out).path
    faultAt file place (.multipleProducers path)
  | .ok (id, graph) =>
    change fun _ => graph
    let poolName ← inspect (·.edgeVar id "pool")
    if poolName ≠ "" then
      match ← inspect (·.findPool? poolName) with
      | none => faultAt file place (.unknownPool poolName)
      | some pool => change (·.modifyEdge id ({ · with pool := some pool }))

/-- Carries out a `default` statement. -/
def defaultStatement (file : SourceFile) : Load Unit := do
  let targets ← reading file targetLine
  let nodes ← resolvePaths file file.scope targets
  change fun g => nodes.foldl Graph.addDefault g

/-- Carries out an `include` statement, or `subninja` if the file gets a scope of its own. -/
def includeStatement (nested : Nested) (file : SourceFile) (ownScope : Bool) : Load Unit := do
  let written ← reading file pathLine
  let path ← inspect fun g => g.scopes.eval file.scope written.template
  if path = "" then faultAt file written.location .emptyPath
  let scope ← if ownScope then newScope file.scope else pure file.scope
  fun s => match nested (Path.canonical path) scope s.graph with
    | .ok _ graph => .ok () { s with graph := graph }
    | .error e graph => .error e { s with graph := graph }

/-- Carries out a binding of the file's scope. -/
def bindingStatement (file : SourceFile) : Load Unit := do
  reading file Lexer.rewind
  let (name, value) ← reading file binding
  changeScopes (·.bind file.scope name value)

/-- Carries out at most `n` statements, up to the end of the file. -/
def statements (nested : Nested) (file : SourceFile) : (n : Nat) → Load Unit
  | 0 => return ()
  | n + 1 => do
    let token ← reading file Lexer.next
    match token.kind with
    | .eof => return ()
    | .newline => pure ()
    | .build => buildStatement file token.location
    | .rule => ruleStatement file
    | .pool => poolStatement file
    | .default => defaultStatement file
    | .include => includeStatement nested file false
    | .subninja => includeStatement nested file true
    | .ident => bindingStatement file
    | .indent => faultAt file token.location .unexpectedIndent
    | .colon | .equals | .pipe | .pipe2 | .pipeAt =>
      faultAt file token.location (.unexpectedToken .statement token.kind)
    statements nested file n

/-- Reads a text into a scope. It has at most as many statements as characters. -/
def loadText (nested : Nested) (path : String) (text : List Char) (scope : ScopeId) :
    EStateM Error Graph Unit := fun graph =>
  match statements nested ⟨path, scope⟩ (text.length + 1) ⟨graph, .start text⟩ with
  | .ok _ s => .ok () s.graph
  | .error e s => .error e s.graph

/-- Reads a file into a scope, with a stack on which files can be nested `depth` deep. -/
def loadFile (files : FileView) : (depth : Nat) → Nested
  | 0 => fun path _ => throw (.nestedTooDeeply path)
  | depth + 1 => fun path scope =>
    match files.read path with
    | .error fault => throw (.cannotRead path fault)
    | .ok bytes => loadText (loadFile files depth) path (Utf8.decodeLossy bytes) scope

/-- How deep files can be nested. -/
def maxDepth : Nat := 1000

/-- The graph of a manifest file. -/
def load (files : FileView) (path : String) : Except Error Graph :=
  match loadFile files maxDepth path Scopes.root .initial with
  | .ok _ graph => .ok graph
  | .error e _ => .error e

/-- The graph of a manifest that is given as text. -/
def parse (files : FileView) (path : String) (text : List Char) : Except Error Graph :=
  match loadText (loadFile files maxDepth) path text Scopes.root .initial with
  | .ok _ graph => .ok graph
  | .error e _ => .error e

end Rebuild.Manifest
