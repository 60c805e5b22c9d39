import Rebuild.Proofs.Manifest.LineEnds

/-!
# Files that are read within others

An `include` or `subninja` statement reads a file within the one that it stands in, and only the
size of the stack bounds how deep that goes. With a stack that suffices loading comes to the same as
with any larger one. There is such a stack exactly if no files are read one within the other without
end; the statements of one file are no more than its characters and always come to an end.
-/

namespace Rebuild.Manifest

open Sequence (bind_eq_error bind_eq_ok bind_of_ok bind_of_error FailsWith)

variable {α β σ : Type} {files : FileView} {file : SourceFile} {nested nested' : Nested}

/-! ## Running out of stack -/

/-- The stack was too small. -/
def RunsOut (result : EStateM.Result Error σ α) : Prop :=
  ∃ path s, result = .error (.nestedTooDeeply path) s

theorem runsOut_bind {first : EStateM Error σ α} {next : α → EStateM Error σ β} {s : σ} :
    RunsOut ((first >>= next) s) ↔
      RunsOut (first s) ∨ ∃ a t, first s = .ok a t ∧ RunsOut (next a t) := by
  constructor
  · rintro ⟨path, u, hout⟩
    obtain hfirst | ⟨a, t, hfirst, hnext⟩ := bind_eq_error.mp hout
    · exact .inl ⟨path, u, hfirst⟩
    · exact .inr ⟨a, t, hfirst, path, u, hnext⟩
  · rintro (⟨path, u, hfirst⟩ | ⟨a, t, hfirst, path, u, hnext⟩)
    · exact ⟨path, u, bind_of_error next hfirst⟩
    · exact ⟨path, u, (bind_of_ok next hfirst).trans hnext⟩

/-- Steps in sequence do not run out if none of them does. -/
theorem not_runsOut_bind {first : EStateM Error σ α} {next : α → EStateM Error σ β} {s : σ}
    (hfirst : ¬RunsOut (first s)) (hnext : ∀ a t, first s = .ok a t → ¬RunsOut (next a t)) :
    ¬RunsOut ((first >>= next) s) := by
  rw [runsOut_bind]
  rintro (hout | ⟨a, t, hrun, hout⟩)
  · exact hfirst hout
  · exact hnext a t hrun hout

/-- Steps that do the same as others if they do not run out of stack. -/
def Approximates (first second : EStateM Error σ α) : Prop :=
  ∀ s, RunsOut (first s) ∨ first s = second s

namespace Approximates

theorem refl (work : EStateM Error σ α) : Approximates work work := fun _ => .inr rfl

theorem trans {first second third : EStateM Error σ α} (h : Approximates first second)
    (h' : Approximates second third) : Approximates first third := by
  intro s
  rcases h s with hout | heq
  · exact .inl hout
  · rw [heq]
    exact h' s

theorem bind {first first' : EStateM Error σ α} {next next' : α → EStateM Error σ β}
    (hfirst : Approximates first first') (hnext : ∀ a, Approximates (next a) (next' a)) :
    Approximates (first >>= next) (first' >>= next') := by
  intro s
  rcases hfirst s with ⟨path, t, hout⟩ | heq
  · exact .inl ⟨path, t, bind_of_error next hout⟩
  · cases hrun : first s with
    | ok a t =>
      rw [bind_of_ok next hrun, bind_of_ok next' (heq ▸ hrun)]
      exact hnext a t
    | error e t =>
      rw [bind_of_error next hrun, bind_of_error next' (heq ▸ hrun)]
      exact .inr rfl

/-- Steps that approximate the same ones agree where neither runs out. -/
theorem agree {first second third : EStateM Error σ α} (h : Approximates first third)
    (h' : Approximates second third) {s : σ} (hfirst : ¬RunsOut (first s))
    (hsecond : ¬RunsOut (second s)) : first s = second s :=
  ((h s).resolve_left hfirst).trans ((h' s).resolve_left hsecond).symm

end Approximates

/-- Reading files approximates another way of reading them. -/
def Shallower (nested nested' : Nested) : Prop :=
  ∀ path scope, Approximates (nested path scope) (nested' path scope)

/-! ## Statements that read files -/

/-- Whether a statement that begins with a token of the kind reads a file, and if so whether into a
scope of its own. -/
def ownScope? : TokenKind → Option Bool
  | .include => some false
  | .subninja => some true
  | _ => none

/-- Which file a statement reads, and into which scope. -/
def includeTarget (file : SourceFile) (ownScope : Bool) : Load (String × ScopeId) := do
  let written ← reading file pathLine
  let path ← inspect fun g => g.scopes.eval file.scope written.template
  if path = "" then faultAt file written.location .emptyPath
  let scope ← if ownScope then newScope file.scope else pure file.scope
  return (Path.canonical path, scope)

/-- Reads a file into the graph. -/
def readInto (nested : Nested) (target : String × ScopeId) : Load Unit := fun s =>
  match nested target.1 target.2 s.graph with
  | .ok _ graph => .ok () { s with graph := graph }
  | .error e graph => .error e { s with graph := graph }

theorem includeStatement_eq (nested : Nested) (file : SourceFile) (ownScope : Bool) :
    includeStatement nested file ownScope = includeTarget file ownScope >>= readInto nested := by
  unfold includeStatement includeTarget
  rw [bind_assoc]
  refine congrArg _ (funext fun written => ?_)
  rw [bind_assoc]
  refine congrArg _ (funext fun path => ?_)
  dsimp only
  split
  · rfl
  · cases ownScope <;> rfl

theorem statement_of_ownScope {token : Token} {ownScope : Bool}
    (h : ownScope? token.kind = some ownScope) :
    statement nested file token = includeTarget file ownScope >>= readInto nested := by
  rw [← includeStatement_eq]
  unfold statement
  generalize token.kind = kind at h
  match kind with
  | .include | .subninja => cases h; rfl

theorem statement_of_none {token : Token} (h : ownScope? token.kind = none) :
    statement nested file token = statement nested' file token := by
  unfold statement
  generalize token.kind = kind at h
  match kind with
  | .include | .subninja => cases h
  | .eof | .newline | .build | .rule | .pool | .default | .ident | .indent | .colon | .equals
  | .pipe | .pipe2 | .pipeAt => rfl

theorem Shallower.statement (h : Shallower nested nested') (file : SourceFile) (token : Token) :
    Approximates (statement nested file token) (statement nested' file token) := by
  cases hown : ownScope? token.kind with
  | none =>
    rw [statement_of_none hown]
    exact .refl _
  | some ownScope =>
    rw [statement_of_ownScope hown, statement_of_ownScope hown]
    refine (Approximates.refl _).bind fun (path, scope) s => ?_
    rcases h path scope s.graph with ⟨path', g, hout⟩ | heq
    · exact .inl ⟨path', _, by rw [readInto, hout]⟩
    · exact .inr (by rw [readInto, heq]; rfl)

theorem Shallower.statements (h : Shallower nested nested') (file : SourceFile) (n : Nat) :
    Approximates (statements nested file n) (statements nested' file n) := by
  induction n with
  | zero => exact .refl _
  | succ n ih =>
    rw [statements_succ, statements_succ]
    refine (Approximates.refl _).bind fun token => ?_
    split
    · exact .refl _
    · exact (h.statement file token).bind fun _ => ih

theorem Shallower.loadText (h : Shallower nested nested') (path : String) (text : List Char)
    (scope : ScopeId) :
    Approximates (loadText nested path text scope) (loadText nested' path text scope) := by
  intro g
  unfold Manifest.loadText
  rcases h.statements ⟨path, scope⟩ (text.length + 1) ⟨g, .start text⟩ with ⟨path', s, hout⟩ | heq
  · rw [hout]
    exact .inl ⟨path', s.graph, rfl⟩
  · rw [heq]
    exact .inr rfl

theorem shallower_succ (files : FileView) (depth : Nat) :
    Shallower (loadFile files depth) (loadFile files (depth + 1)) := by
  induction depth with
  | zero => exact fun path _ g => .inl ⟨path, g, rfl⟩
  | succ depth ih =>
    intro path scope
    rw [loadFile, loadFile]
    dsimp only
    cases files.read path with
    | error fault => exact .refl _
    | ok bytes => exact ih.loadText path _ scope

/-- A larger stack makes no difference if a smaller one suffices. -/
theorem shallower_of_le (files : FileView) {depth depth' : Nat} (h : depth ≤ depth') :
    Shallower (loadFile files depth) (loadFile files depth') := by
  induction h with
  | refl => exact fun path scope => .refl _
  | step _ ih => exact fun path scope => (ih path scope).trans (shallower_succ files _ path scope)

/-! ## Faults of the text -/

/-- A fault of a text that is read. -/
def IsMalformed (e : Error) : Prop := ∃ path place fault, e = .malformed path place fault

/-- Steps that fail only for faults of the text. -/
abbrev Textual (work : Load α) : Prop := FailsWith IsMalformed work

theorem Textual.not_runsOut {work : Load α} (h : Textual work) (s : Loader) :
    ¬RunsOut (work s) := by
  rintro ⟨path, t, hout⟩
  obtain ⟨path', place, fault, he⟩ := h s _ t hout
  cases he

theorem textual_reading (read : Reading α) : Textual (reading file read) := by
  intro s e t h
  unfold reading at h
  split at h
  · cases h
  · cases h
    exact ⟨_, _, _, rfl⟩

theorem textual_inspect (f : Graph → α) : Textual (inspect f) := fun _ _ _ => nofun

theorem textual_change (f : Graph → Graph) : Textual (change f) := fun _ _ _ => nofun

theorem textual_changeGet (f : Graph → α × Graph) : Textual (changeGet f) := fun _ _ _ => nofun

theorem textual_faultAt (place : Location) (fault : SyntaxFault) :
    Textual (faultAt file place fault : Load α) :=
  .throw ⟨_, _, _, rfl⟩

theorem textual_check {c : Prop} [Decidable c] {place : Location} {fault : SyntaxFault}
    {next : α → Load β} {work : Load β} (h : Textual work) :
    Textual (if c then faultAt file place fault >>= next else work) := by
  split
  · intro s e t h
    cases h
    exact ⟨_, _, _, rfl⟩
  · exact h

theorem textual_blockUpTo {step : σ → Location → String → Template → Load σ}
    (hstep : ∀ acc place name value, Textual (step acc place name value)) (n : Nat) (acc : σ) :
    Textual (blockUpTo file step n acc) := by
  induction n generalizing acc with
  | zero => exact .pure acc
  | succ n ih =>
    refine (textual_reading _).bind fun token => ?_
    cases token with
    | none => exact .pure acc
    | some token =>
      refine (textual_reading _).bind fun place => (textual_reading _).bind fun (name, value) => ?_
      exact (hstep acc place name value).bind ih

theorem textual_block {step : σ → Location → String → Template → Load σ}
    (hstep : ∀ acc place name value, Textual (step acc place name value)) (acc : σ) :
    Textual (block file acc step) :=
  fun _ => textual_blockUpTo hstep _ acc _

theorem textual_resolvePaths (scope : ScopeId) (paths : List WrittenPath) :
    Textual (resolvePaths file scope paths) := by
  induction paths with
  | nil => exact .pure []
  | cons written paths ih =>
    refine (textual_inspect _).bind fun path => textual_check ?_
    exact (textual_changeGet _).bind fun node => ih.bind fun nodes => .pure _

theorem textual_includeTarget (ownScope : Bool) : Textual (includeTarget file ownScope) := by
  refine (textual_reading _).bind fun written => (textual_inspect _).bind fun path =>
    textual_check ?_
  cases ownScope with
  | false => exact .pure _
  | true => exact (textual_changeGet _).bind fun scope => .pure _

theorem textual_ruleStatement : Textual (ruleStatement file) := by
  refine (textual_reading _).bind fun (place, name) => (textual_inspect _).bind fun taken =>
    textual_check ?_
  refine (textual_block (fun vars varPlace var value => textual_check (.pure _)) _).bind fun vars =>
    textual_check ?_
  exact (textual_changeGet _).bind fun rule => textual_change _

theorem textual_poolStatement : Textual (poolStatement file) := by
  refine (textual_reading _).bind fun (place, name) => (textual_inspect _).bind fun found =>
    textual_check ?_
  refine (textual_block (fun _ varPlace var value => textual_check ?_) _).bind fun depth => ?_
  · refine (textual_inspect _).bind fun text => ?_
    split
    · exact .pure _
    · exact textual_faultAt _ _
  cases depth with
  | none => exact textual_faultAt _ _
  | some depth => exact textual_change _

theorem textual_buildStatement (place : Location) : Textual (buildStatement file place) := by
  refine (textual_reading _).bind fun line => ?_
  refine FailsWith.bind ?_ fun recipe => ?_
  · unfold recipeOf
    split
    · exact .pure _
    refine (textual_inspect _).bind fun found => ?_
    split
    · exact .pure _
    · exact textual_faultAt _ _
  refine (textual_changeGet _).bind fun scope => ?_
  refine (textual_block (fun _ _ _ _ => textual_change _) ()).bind fun _ => ?_
  refine (textual_resolvePaths _ _).bind fun explicitOuts => ?_
  refine (textual_resolvePaths _ _).bind fun implicitOuts => ?_
  refine (textual_resolvePaths _ _).bind fun explicitIns => ?_
  refine (textual_resolvePaths _ _).bind fun implicitIns => ?_
  refine (textual_resolvePaths _ _).bind fun orderOnlyIns => ?_
  refine (textual_resolvePaths _ _).bind fun validations => ?_
  refine (textual_inspect _).bind fun ins => (textual_inspect _).bind fun outs => ?_
  refine (textual_change _).bind fun _ => (textual_inspect _).bind fun added => ?_
  split
  · exact (textual_inspect _).bind fun _ => textual_faultAt _ _
  refine (textual_change _).bind fun _ => (textual_inspect _).bind fun poolName => ?_
  split
  · refine (textual_inspect _).bind fun pool => ?_
    split
    · exact textual_faultAt _ _
    · exact textual_change _
  · exact .pure _

theorem textual_defaultStatement : Textual (defaultStatement file) :=
  (textual_reading _).bind fun _ => (textual_resolvePaths _ _).bind fun _ => textual_change _

theorem textual_bindingStatement : Textual (bindingStatement file) :=
  (textual_reading _).bind fun _ => (textual_reading _).bind fun (_, _) => textual_change _

/-- Statements that read no file never run out of stack. -/
theorem textual_statement {token : Token} (h : ownScope? token.kind = none) :
    Textual (statement nested file token) := by
  unfold statement
  generalize token.kind = kind at h
  match kind with
  | .include | .subninja => cases h
  | .eof | .newline => exact .pure _
  | .build => exact textual_buildStatement _
  | .rule => exact textual_ruleStatement
  | .pool => exact textual_poolStatement
  | .default => exact textual_defaultStatement
  | .ident => exact textual_bindingStatement
  | .indent | .colon | .equals | .pipe | .pipe2 | .pipeAt => exact textual_faultAt _ _

/-! ## Chains of files -/

/-- A file that is to be read into a scope of a graph. -/
structure Call where
  path : String
  scope : ScopeId
  graph : Graph

/-- What comes of reading the file, with a stack on which files can be nested `depth` deep. -/
def Call.load (files : FileView) (depth : Nat) (c : Call) : EStateM.Result Error Graph Unit :=
  loadFile files depth c.path c.scope c.graph

/-- The file, as faults in it are reported. -/
def Call.source (c : Call) : SourceFile := ⟨c.path, c.scope⟩

/-- One statement after the other is carried out, with whatever stack each of them needs. -/
inductive Reaches (files : FileView) (file : SourceFile) : Loader → Loader → Prop where
  | refl (s) : Reaches files file s s
  | step {s t u v token} (depth) : reading file Lexer.next s = .ok token t →
      token.kind ≠ .eof → statement (loadFile files depth) file token t = .ok () u →
      Reaches files file u v → Reaches files file s v

/-- The next statement reads a file. -/
def Asks (file : SourceFile) (s : Loader) (c : Call) : Prop :=
  ∃ token t ownScope u, reading file Lexer.next s = .ok token t ∧
    ownScope? token.kind = some ownScope ∧
      includeTarget file ownScope t = .ok (c.path, c.scope) u ∧ c.graph = u.graph

/-- A file is read by a statement of another one. -/
def Nests (files : FileView) (inner outer : Call) : Prop :=
  ∃ bytes s, files.read outer.path = .ok bytes ∧
    Reaches files outer.source ⟨outer.graph, .start (Utf8.decodeLossy bytes)⟩ s ∧
      Asks outer.source s inner

/-- Loading ends: some stack suffices. -/
def Ends (files : FileView) (c : Call) : Prop :=
  ∃ depth, ¬RunsOut (c.load files depth)

theorem Call.load_of_le {depth depth' : Nat} {c : Call} (h : ¬RunsOut (c.load files depth))
    (hle : depth ≤ depth') : c.load files depth' = c.load files depth :=
  ((shallower_of_le files hle c.path c.scope c.graph).resolve_left h).symm

theorem Call.load_succ {depth : Nat} {c : Call} {bytes : List UInt8}
    (hread : files.read c.path = .ok bytes) : c.load files (depth + 1) =
      loadText (loadFile files depth) c.path (Utf8.decodeLossy bytes) c.scope c.graph := by
  rw [Call.load, loadFile]
  dsimp only
  rw [hread]

theorem runsOut_loadText {nested : Nested} {path : String} {text : List Char} {scope : ScopeId}
    {g : Graph} : RunsOut (loadText nested path text scope g) ↔
      RunsOut (statements nested ⟨path, scope⟩ (text.length + 1) ⟨g, .start text⟩) := by
  unfold loadText
  split
  · next h => simp [RunsOut, h]
  · next h => simp [RunsOut, h]

theorem runsOut_readInto {target : String × ScopeId} {s : Loader} :
    RunsOut (readInto nested target s) ↔ RunsOut (nested target.1 target.2 s.graph) := by
  unfold readInto
  split
  · next h => simp [RunsOut, h]
  · next h => simp [RunsOut, h]

/-- Two stacks that both suffice for a statement do not differ in it. -/
theorem statement_agree {token : Token} {t : Loader} {depth depth' : Nat}
    (h : ¬RunsOut (statement (loadFile files depth) file token t))
    (h' : ¬RunsOut (statement (loadFile files depth') file token t)) :
    statement (loadFile files depth) file token t =
      statement (loadFile files depth') file token t :=
  ((shallower_of_le files (Nat.le_max_left ..)).statement file token).agree
    ((shallower_of_le files (Nat.le_max_right ..)).statement file token) h h'

/-! ## Loading ends if chains do -/

/-- A statement ends if the file that it reads, if any, can be loaded. -/
theorem exists_depth_statement {s t : Loader} {token : Token}
    (hnext : reading file Lexer.next s = .ok token t)
    (hask : ∀ c, Asks file s c → Ends files c) :
    ∃ depth, ¬RunsOut (statement (loadFile files depth) file token t) := by
  cases hown : ownScope? token.kind with
  | none => exact ⟨0, (textual_statement hown).not_runsOut t⟩
  | some ownScope =>
    simp only [statement_of_ownScope hown]
    have htext : ¬RunsOut (includeTarget file ownScope t) :=
      (textual_includeTarget ownScope).not_runsOut t
    cases htarget : includeTarget file ownScope t with
    | error e u =>
      exact ⟨0, not_runsOut_bind htext fun _ _ h => nomatch htarget.symm.trans h⟩
    | ok target u =>
      obtain ⟨depth, hdepth⟩ := hask ⟨target.1, target.2, u.graph⟩
        ⟨token, t, ownScope, u, hnext, hown, htarget, rfl⟩
      refine ⟨depth, not_runsOut_bind htext fun _ _ h => ?_⟩
      cases htarget.symm.trans h
      rwa [runsOut_readInto]

theorem exists_depth_statements {s : Loader} (n : Nat)
    (hask : ∀ s', Reaches files file s s' → ∀ c, Asks file s' c → Ends files c) :
    ∃ depth, ¬RunsOut (statements (loadFile files depth) file n s) := by
  induction n generalizing s with
  | zero => exact ⟨0, nofun⟩
  | succ n ih =>
    simp only [statements_succ]
    have htext : ¬RunsOut (reading file Lexer.next s) := (textual_reading _).not_runsOut s
    cases hnext : reading file Lexer.next s with
    | error e t => exact ⟨0, not_runsOut_bind htext fun _ _ h => nomatch hnext.symm.trans h⟩
    | ok token t =>
      simp only [bind_of_ok _ hnext]
      by_cases heof : token.kind = .eof
      · simp only [if_pos heof]
        exact ⟨0, nofun⟩
      simp only [if_neg heof]
      obtain ⟨d₁, hd₁⟩ := exists_depth_statement hnext (hask s (.refl s))
      cases hstatement : statement (loadFile files d₁) file token t with
      | error e u =>
        exact ⟨d₁, not_runsOut_bind hd₁ fun _ _ h => nomatch hstatement.symm.trans h⟩
      | ok _ u =>
        obtain ⟨d₂, hd₂⟩ := ih fun s' hs' => hask s' (.step d₁ hnext heof hstatement hs')
        -- the larger stack does for this statement and for those after it
        have hsame := (shallower_of_le files (Nat.le_max_left d₁ d₂)).statement file token t
        have hrest := (shallower_of_le files (Nat.le_max_right d₁ d₂)).statements file n u
        refine ⟨max d₁ d₂, ?_⟩
        rw [bind_of_ok _ ((hsame.resolve_left hd₁).symm.trans hstatement),
          ← hrest.resolve_left hd₂]
        exact hd₂

theorem ends_of_acc {c : Call} (h : Acc (Nests files) c) : Ends files c := by
  induction h with
  | intro c _ ih =>
    cases hread : files.read c.path with
    | error fault =>
      refine ⟨1, ?_⟩
      rw [Call.load, loadFile]
      dsimp only
      rw [hread]
      nofun
    | ok bytes =>
      obtain ⟨depth, hdepth⟩ := exists_depth_statements ((Utf8.decodeLossy bytes).length + 1)
        fun s hs inner hasks => ih inner ⟨bytes, s, hread, hs, hasks⟩
      refine ⟨depth + 1, ?_⟩
      rw [Call.load_succ hread, runsOut_loadText]
      exact hdepth

/-! ## Chains end if loading does -/

open Lexer (Abreast)

/-- Less is left after a statement. -/
theorem alike_statement {s t u : Loader} {token : Token} {n : Nat}
    (hs : Alike (Abreast (n + 1) (n + 1)) s s) (hnext : reading file Lexer.next s = .ok token t)
    (heof : token.kind ≠ .eof) (hstatement : statement nested file token t = .ok () u) :
    Alike (Abreast n n) u u := by
  have ht := (mirrors_reading Lexer.mirrors_next_lower).self hs hnext
  simp only [heof, if_false] at ht
  exact (mirrors_statement nested ⟨rfl, rfl, rfl⟩).self ht hstatement

theorem not_runsOut_of_statements {s t : Loader} {token : Token} {n : Nat}
    (hnext : reading file Lexer.next s = .ok token t) (heof : token.kind ≠ .eof)
    (h : ¬RunsOut (statements nested file (n + 1) s)) :
    ¬RunsOut (statement nested file token t) ∧
      ∀ u, statement nested file token t = .ok () u → ¬RunsOut (statements nested file n u) := by
  rw [statements_succ, bind_of_ok _ hnext, if_neg heof, runsOut_bind] at h
  exact ⟨fun hout => h (.inl hout), fun u hu hout => h (.inr ⟨(), u, hu, hout⟩)⟩

/-- If a stack suffices for all statements from a state on, it suffices for the file that one of
them reads. -/
theorem not_runsOut_asked {s s' : Loader} {c : Call} {depth n : Nat}
    (hs : Alike (Abreast n n) s s) (hreaches : Reaches files file s s') (hasks : Asks file s' c)
    (h : ¬RunsOut (statements (loadFile files depth) file n s)) :
    ¬RunsOut (c.load files depth) := by
  obtain ⟨n, rfl⟩ : ∃ k, n = k + 1 := ⟨n - 1, by have := hs.2.left; omega⟩
  induction hreaches generalizing n with
  | refl s =>
    obtain ⟨token, t, ownScope, u, hnext, hown, htarget, hgraph⟩ := hasks
    have heof : token.kind ≠ .eof := fun heof => by rw [heof] at hown; cases hown
    have hstatement := (not_runsOut_of_statements hnext heof h).1
    rw [statement_of_ownScope hown, bind_of_ok _ htarget, runsOut_readInto] at hstatement
    rwa [← hgraph] at hstatement
  | @step s t u v token depth' hnext heof hrun _ ih =>
    obtain ⟨hstatement, hrest⟩ := not_runsOut_of_statements hnext heof h
    -- with this stack the statement does what it does with the one that it was carried out with
    have hrun' : statement (loadFile files depth) file token t = .ok () u :=
      (statement_agree hstatement (by rw [hrun]; nofun)).trans hrun
    have hu := alike_statement hs hnext heof hrun'
    obtain ⟨n, rfl⟩ : ∃ k, n = k + 1 := ⟨n - 1, by have := hu.2.left; omega⟩
    exact ih hasks n hu (hrest u hrun')

theorem acc_of_ends {depth : Nat} {c : Call} (h : ¬RunsOut (c.load files depth)) :
    Acc (Nests files) c := by
  induction depth generalizing c with
  | zero => exact absurd ⟨c.path, c.graph, rfl⟩ h
  | succ depth ih =>
    refine ⟨c, fun inner ⟨bytes, s, hread, hreaches, hasks⟩ => ih ?_⟩
    rw [Call.load_succ hread, runsOut_loadText] at h
    have hstart : Alike (Abreast _ _) ⟨c.graph, .start (Utf8.decodeLossy bytes)⟩
      ⟨c.graph, .start (Utf8.decodeLossy bytes)⟩ := ⟨rfl, abreast_start (.refl _)⟩
    exact not_runsOut_asked hstart hreaches hasks h

/-- A bound on the number of statements that is larger than the text is never met. -/
theorem loadText_eq_of_lt {text : List Char} {n : Nat} (hn : text.length < n) (nested : Nested)
    (path : String) (scope : ScopeId) (g : Graph) : loadText nested path text scope g =
      match statements nested ⟨path, scope⟩ n ⟨g, .start text⟩ with
      | .ok _ s => .ok () s.graph
      | .error e s => .error e s.graph := by
  have hstart : Alike (Abreast (text.length + 1) n) ⟨g, .start text⟩ ⟨g, .start text⟩ :=
    ⟨rfl, (abreast_start (.refl text)).mono (Nat.le_refl _) hn⟩
  unfold loadText
  obtain ⟨_, _, s, s', hrun, hrun', -, hgraph, -⟩ | ⟨e, s, s', hrun, hrun', hgraph, -⟩ :=
    mirrors_statements nested ⟨path, scope⟩ hstart
  · simp only [hrun, hrun', hgraph]
  · simp only [hrun, hrun', hgraph]

/-- A file that is read within itself starts an endless chain. -/
theorem not_nests_self {c : Call} (h : Acc (Nests files) c) : ¬Nests files c c := by
  induction h with
  | intro c _ ih => exact fun hself => ih c hself hself

/-- Loading a file comes to an end, with an outcome that no larger stack changes, exactly if there
is no endless chain of files each of which is read by a statement of the one before. Within a file
there is always an end: it does not matter how many statements are carried out at most, as long as
they may be as many as the characters of the file. -/
theorem loading_ends_iff (files : FileView) (c : Call) :
    ((∃ depth outcome, ¬RunsOut outcome ∧ ∀ d, depth ≤ d → c.load files d = outcome) ↔
      Acc (Nests files) c) ∧
    ∀ bytes, files.read c.path = .ok bytes → ∀ depth n, (Utf8.decodeLossy bytes).length < n →
      c.load files (depth + 1) =
        match statements (loadFile files depth) c.source n
          ⟨c.graph, .start (Utf8.decodeLossy bytes)⟩ with
        | .ok _ s => .ok () s.graph
        | .error e s => .error e s.graph := by
  refine ⟨⟨?_, fun hacc => ?_⟩, fun bytes hread depth n hn => ?_⟩
  · rintro ⟨depth, outcome, hout, hload⟩
    exact acc_of_ends (hload depth (Nat.le_refl _) ▸ hout)
  · obtain ⟨depth, hdepth⟩ := ends_of_acc hacc
    exact ⟨depth, c.load files depth, hdepth, fun d hd => Call.load_of_le hdepth hd⟩
  · rw [Call.load_succ hread]
    exact loadText_eq_of_lt hn _ _ _ _

/-- A manifest that includes a file with rules, and one that includes itself. -/
def linkedFiles : FileView where
  stat _ := .ok none
  read path :=
    if path = "build.ninja" then .ok (Utf8.encode "include rules.ninja\n".toList)
    else if path = "rules.ninja" then .ok (Utf8.encode "rule cc\n  command = cc\n".toList)
    else if path = "loop.ninja" then .ok (Utf8.encode "include loop.ninja\n".toList)
    else .error .missing

theorem graph_of_includeTarget {t u : Loader} {target : String × ScopeId}
    (h : includeTarget file false t = .ok target u) : u.graph = t.graph := by
  obtain ⟨written, t₁, hread, h⟩ := bind_eq_ok.mp h
  obtain ⟨path, t₂, hinspect, h⟩ := bind_eq_ok.mp h
  cases hinspect
  dsimp only at h
  split at h
  · cases h
  · cases h
    exact (reading_eq_ok hread).2

/-- The manifest that includes itself is read within itself. -/
theorem nests_loop : Nests linkedFiles ⟨"loop.ninja", Scopes.root, .initial⟩
    ⟨"loop.ninja", Scopes.root, .initial⟩ := by
  let start : Loader :=
    ⟨.initial, .start (Utf8.decodeLossy (Utf8.encode "include loop.ninja\n".toList))⟩
  have hruns : match reading ⟨"loop.ninja", Scopes.root⟩ Lexer.next start with
      | .ok token t => ownScope? token.kind = some false ∧
        match includeTarget ⟨"loop.ninja", Scopes.root⟩ false t with
        | .ok target _ => target = ("loop.ninja", Scopes.root)
        | .error _ _ => False
      | .error _ _ => False := by cbv
  refine ⟨_, start, rfl, .refl start, ?_⟩
  split at hruns
  · next token t hnext =>
    obtain ⟨hown, htarget⟩ := hruns
    split at htarget
    · next target u hread =>
      subst htarget
      refine ⟨token, t, false, u, hnext, hown, hread, ?_⟩
      rw [graph_of_includeTarget hread, (reading_eq_ok hnext).2]
    · exact htarget.elim
  · exact hruns.elim

/-- The first manifest is loaded with a stack for two files. There is no stack for the second. -/
theorem loading_ends_iff_linkedFiles :
    Acc (Nests linkedFiles) ⟨"build.ninja", Scopes.root, .initial⟩ ∧
      ∀ depth, RunsOut (Call.load linkedFiles depth ⟨"loop.ninja", Scopes.root, .initial⟩) := by
  constructor
  · have hloaded : match Call.load linkedFiles 2 ⟨"build.ninja", Scopes.root, .initial⟩ with
        | .ok _ _ => True
        | .error _ _ => False := by cbv
    have hout : ¬RunsOut (Call.load linkedFiles 2 ⟨"build.ninja", Scopes.root, .initial⟩) := by
      rintro ⟨path, g, hrun⟩
      rwa [hrun] at hloaded
    exact (loading_ends_iff _ _).1.mp ⟨2, _, hout, fun _ hd => Call.load_of_le hout hd⟩
  · intro depth
    by_contra hout
    have hacc := (loading_ends_iff _ _).1.mp ⟨depth, _, hout, fun _ hd => Call.load_of_le hout hd⟩
    exact not_nests_self hacc nests_loop

end Rebuild.Manifest
