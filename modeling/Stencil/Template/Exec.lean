import Stencil.Template.Eval

/-!
# Execution

What statements do.

Entering a scope gives each of its names a first value and leaving it takes
all of them away. A loop does so for every item, so an assignment in its body
ends with the iteration.

Text and blocks at the top level of a template are left out once the template
has a parent: the parent prints instead, and calls the blocks by name.

Statements are run by recursion on the syntax. Jobs are run by recursion on
their count, and each is one activation with a whole buffer of its own.

## Main definitions

* `Target.write`: Writes a value to a target.
* `loopOver`: Runs a body for items.
* `Stmt.exec`: Runs a statement.
* `perform`: Runs a job.
* `runJob`: Runs a job that may lead to a number of others, one in another.
-/

namespace Stencil

namespace Template

namespace Run

/-- Gives the names of the innermost scope their first values. -/
def enter (p : Place) : Run Unit := do
  match p.scopes with
  | [] => return
  | s :: outer =>
    for (name, origin) in s.origins do
      let slot := (outer.length, name)
      match origin with
      | .parameter => pure ()
      | .context => setSlot p slot (← lookup? p.context name)
      | .copy source => setSlot p slot (← slot? p source)
      | .unset => setSlot p slot none

/-- Takes away the values of the names of the innermost scope. -/
def leave (p : Place) : Run Unit := do
  match p.scopes with
  | [] => return
  | s :: outer =>
    for (name, _) in s.origins do
      setSlot p (outer.length, name) none

/-- The parent of the template whose activation is around, if it has one. -/
def parentFrom (st : Store) : Nat → Nat → Option String
  | 0, _ => none
  | n + 1, act =>
    match st.activations[act]? with
    | none => none
    | some a =>
      match a.parent, a.outer with
      | some t, _ => some t
      | none, some o => parentFrom st n o
      | none, none => none

/-- Text is left out at a place. -/
def isSilent (p : Place) : Run Bool := do
  if p.yieldsToParent then
    let st ← get
    return (parentFrom st (st.activations.size + 1) p.activation).isSome
  else return false

/-- Writes a variable. -/
def writeName (p : Place) (name : String) (v : Value) : Run Unit := do
  match Scopes.slot? p.scopes name with
  | some slot => setSlot p slot (some v)
  | none => return

/-- Writes an attribute of a namespace that is held by a variable. -/
def writeMember (p : Place) (space key : String) (v : Value) : Run Unit := do
  match ← readName p space with
  | .object .space id =>
    let es := ((← get).spaces[id]?).getD []
    let es ← Value.insert (.text key) v es
    modify fun st => { st with spaces := st.spaces.modify id fun _ => es }
  | .dict es => writeName p space (.dict (← Value.insert (.text key) v es))
  | .undefined u => Value.missing u
  | w => fail .badType s!"'{w.typeName}' object does not support item assignment"

end Run

mutual
/-- Writes a value to a target. -/
def Target.write (p : Place) : Target → Value → Run Unit
  | .name s _, v => Run.writeName p s v
  | .member space key, v => Run.writeMember p space key v
  | .tuple ts, v => do Target.writeAll p ts (← Run.unpack ts.length v)

/-- Writes values to targets. -/
def Target.writeAll (p : Place) : List Target → List Value → Run Unit
  | t :: ts, v :: vs => do
    t.write p v
    Target.writeAll p ts vs
  | _, _ => return
end

mutual
/-- The value that a target holds after a value is written to it. -/
def Target.restate : Target → Value → Run Value
  | .tuple ts, v => do return .tuple (← Target.restateAll ts (← Run.unpack ts.length v))
  | _, v => return v

/-- The values that targets hold after values are written to them. -/
def Target.restateAll : List Target → List Value → Run (List Value)
  | t :: ts, v :: vs => do
    let w ← t.restate v
    return w :: (← Target.restateAll ts vs)
  | _, _ => return []
end

/-- Refuses to write attributes of what is no namespace. -/
def checkSpaces (p : Place) : List String → Run Unit
  | [] => return
  | s :: ss => do
    match ← readName p s with
    | .object .space _ => checkSpaces p ss
    | _ => Run.fail .runtime "cannot assign attribute on non-namespace object"

/-- Makes variables that were written at the top level visible by name. -/
def publish (p : Place) (names : List String) (isExported : Bool) : Run Unit := do
  if p.isTop then
    for name in names do
      match Scopes.slot? p.scopes name with
      | none => pure ()
      | some slot =>
        match ← Run.slot? p slot with
        | none => pure ()
        | some v =>
          Run.modifyContext p.context fun c =>
            let isPublic := !name.startsWith "_"
            let others := c.exported.filter (· != name)
            { c with
              own := setPair name v c.own
              -- A name with an underscore in front is visible but not exported.
              exported :=
                if !isPublic then c.exported
                else if isExported then others ++ [name] else others }
  else return

/-- The special names that the body of a macro reads and that are no
parameters of it. -/
def specialNames (ps : List Parameter) (body : List Stmt) : List String :=
  let free := freeAmong ["caller", "kwargs", "varargs"] (Stmt.mentionsOf body)
  ["caller", "kwargs", "varargs"].filter fun n =>
    free.contains n && !(ps.map Prod.fst).contains n

/-- Makes a macro at a place. -/
def defineMacro (p : Place) (name : Option String) (ps : List Parameter) (body : List Stmt) :
    Run Value :=
  let special := specialNames ps body
  let scope := Scope.ofMacro p.scopes ps special body
  Run.newMacro ⟨name, ps, body, special, { p with
    scopes := scope :: p.scopes
    isTop := false
    yieldsToParent := false }⟩

/-- A loop and the code that it runs. -/
structure Loop where
  /-- Where it stands. -/
  place : Place
  /-- What its items are written to. -/
  target : Target
  /-- The test that items have to pass. -/
  test : Option Expr
  /-- Its body reads its state. -/
  isExtended : Bool
  /-- The scope of its body. -/
  scope : Scope
  /-- The site, if it is recursive. -/
  site : Option LoopSite
  /-- How many loops of the same site are around it. -/
  depth : Nat
  /-- Runs the body at a place. -/
  body : Place → Run Unit
  /-- Runs at the place of the loop if there are no items. -/
  otherwise : Run Unit

namespace Loop

/-- Where the body runs. -/
def inside (l : Loop) : Place :=
  { l.place with scopes := l.scope :: l.place.scopes, isTop := false }

/-- What an item is in the body, if it passes the test. -/
def accept (en : Engine) (l : Loop) (site : Option Place) (x : Value) : Run (List Value) := do
  match l.test, site with
  | some test, some p =>
    let y ← l.target.restate x
    l.target.write p y
    if ← (← test.eval ⟨en, p, ""⟩).truth then return [y] else return []
  | _, _ => return [x]

/-- Where the test runs: in an activation of its own. -/
def testPlace (l : Loop) : Run (Option Place) := do
  match l.test with
  | none => return none
  | some test =>
    let p := l.place
    let act ← Run.activate p.scopes.length (some p.activation)
    let p := { p with
      scopes := Scope.ofTest p.scopes l.target test :: p.scopes
      activation := act
      isTop := false }
    Run.enter p
    return some p

/-- Runs the body for an item. -/
def iterate (l : Loop) (state : Option Value) (x : Value) : Run Unit := do
  let p := l.inside
  l.target.write p x
  match state with
  | some v => Run.writeName p "loop" v
  | none => pure ()
  Run.enter p
  l.body p

/-- Runs the body for items that are admitted one by one. -/
def plain (en : Engine) (l : Loop) (test : Option Place) (ran : Bool) : List Value → Run Bool
  | [] => return ran
  | x :: xs => do
    match ← accept en l test x with
    | y :: _ =>
      iterate l none y
      plain en l test true xs
    | [] => plain en l test ran xs

/-- Runs the body for items, with the state of the loop at hand. -/
def counted (l : Loop) (id : Nat) : Nat → List Value → Run Unit
  | _, [] => return
  | i, x :: xs => do
    modify fun st => { st with loops := st.loops.modify id fun s => { s with index := i } }
    iterate l (some (.object .loop id)) x
    counted l id (i + 1) xs

/-- Runs the body for each item of a value, or what runs if there are none. -/
def runOver (en : Engine) (l : Loop) (v : Value) : Run Unit := do
  let (xs, failure) ← Run.draw v
  let test ← l.testPlace
  let ran ←
    if l.isExtended then do
      let (ys, refused) ← gather (accept en l test) xs
      let id ← Run.newLoop ⟨ys, 0, l.depth, l.site, none⟩
      counted l id 0 ys
      match refused with
      | some f => throw f
      | none => pure ()
      pure !ys.isEmpty
    else plain en l test false xs
  match failure with
  | some f => throw f
  | none => pure ()
  Run.leave l.inside
  if ran then return else l.otherwise

end Loop

/-- The loop reads its state: it is recursive, or its body mentions the state
or holds a block that sees the variables around it. -/
def isExtendedLoop (body otherwise : List Stmt) (recursive : Bool) : Bool :=
  recursive || readsFree "loop" body ||
    (blocksOf body ++ blocksOf otherwise).any (·.isScoped)

/-- Runs something in a scope of its own. -/
def inScope (p : Place) (scope : Scope) (act : Place → Run Unit) : Run Unit := do
  let inner := { p with scopes := scope :: p.scopes, isTop := false }
  Run.enter inner
  act inner
  Run.leave inner

/-- Writes the values of expressions to targets of another place. -/
def bindAll (c : Site) (inner : Place) : List Target → List Expr → Run Unit
  | t :: ts, e :: es => do
    let v ← e.eval c
    t.write inner v
    bindAll c inner ts es
  | _, _ => return

/-- The template that an embedding names: a literal list names several, and so
does any value that is no text, unless a text is written down. -/
def embedded (c : Site) (e : Expr) : Run Page := do
  let v ← e.eval c
  match e, v with
  | .list _, v => c.engine.choose c.place.template v
  | .tuple _, v => c.engine.choose c.place.template v
  | _, .text s => c.engine.fetch c.place.template (.text s)
  | _, v => c.engine.choose c.place.template v

/-- Writes names that a module exports to variables, or values that do not
exist. -/
def takeNames (p : Place) (m : Module) (line : Nat) : List (String × String) → Run Unit
  | [] => return
  | (name, given) :: rest => do
    let v := match m.exports.lookup name with
      | some v => v
      | none => Run.notThere
          (s!"the template {Text.quoted m.template} (imported on line {line} in " ++
            s!"{Text.quoted p.template}) does not export the requested name {Text.quoted name}")
    Run.writeName p given v
    takeNames p m line rest

/-- Makes a template the parent: its blocks come after those that are known. -/
def adopt (p : Place) (s : Page) : Run Unit := do
  Run.modifyContext p.context fun c =>
    { c with blocks := s.blocks.foldl (fun bs b =>
        setPair b.name ((bs.lookup b.name).getD [] ++ [⟨s.path, b.name⟩]) bs) c.blocks }
  modify fun st =>
    { st with activations := st.activations.modify p.activation fun a =>
        { a with parent := some s.path } }

/-- Runs the block that stands at a place. -/
def runBlock (en : Engine) (p : Place) (name : String) (isScoped isRequired : Bool) :
    Run Unit := do
  let c ← Run.context p.context
  let stack := (c.blocks.lookup name).getD []
  if isRequired && stack.length ≤ 1 then
    Run.fail .runtime s!"Required block {Text.quoted name} not found"
  else
    match stack with
    | [] => return
    | b :: _ =>
      let ctx ←
        if isScoped then do
          Run.newContext { c with given := ← Run.nested p, own := [], exported := [] }
        else pure p.context
      Run.write (← en.run (.block b ctx))

mutual
/-- Runs a statement. -/
def Stmt.exec (en : Engine) (p : Place) : Stmt → Run Unit
  | .data s => do if ← Run.isSilent p then return else Run.write s
  | .print e => do
    if ← Run.isSilent p then return
    else Run.write (← Run.display (← e.eval ⟨en, p, ""⟩))
  | .loop target items body otherwise test recursive => do
    if recursive then
      let site : LoopSite := ⟨p, target, body, otherwise, test⟩
      Run.write (← en.run (.again site (← items.eval ⟨en, p, ""⟩) 0))
    else
      let isExtended := isExtendedLoop body otherwise false
      let scope := Scope.ofLoop p.scopes (if isExtended then ["loop"] else []) target body
      let v ← items.eval ⟨en, p, ""⟩
      Loop.runOver en {
        place := p
        target := target
        test := test
        isExtended := isExtended
        scope := scope
        site := none
        depth := 0
        body := fun q => Stmt.execAll en q body
        otherwise := inScope p (Scope.ofBody p.scopes [] otherwise) fun q =>
          Stmt.execAll en q otherwise } v
  | .branch test body others otherwise => do
    if ← (← test.eval ⟨en, p, ""⟩).truth then Stmt.execAll en p body
    else if ← Stmt.execFirst en p others then return
    else Stmt.execAll en p otherwise
  | .define name ps body _ => do
    let m ← defineMacro p (some name) ps body
    Run.writeName p name m
    publish p [name] true
  | .callBlock f args ps body _ => do
    let m ← defineMacro p none ps body
    let v ← f.eval ⟨en, p, ""⟩
    let args ← args.eval ⟨en, p, ""⟩
    Run.emit (← en.call v ⟨args.positional, args.named ++ [("caller", m)]⟩)
  | .filterBlock filter body =>
    inScope p (Scope.ofFilter p.scopes filter body) fun q => do
      let text ← Run.capture false (Stmt.execAll en q body)
      Run.emit (← filter.eval ⟨en, q, text⟩)
  | .scope targets values body =>
    inScope p (Scope.ofBindings p.scopes targets body) fun q => do
      bindAll ⟨en, p, ""⟩ q targets values
      Stmt.execAll en q body
  | .block name _ isScoped isRequired _ => do
    if p.isTop && (← Run.isSilent p) then return
    else runBlock en p name isScoped isRequired
  | .embed template withContext ignoreMissing => do
    match ← attempt (embedded ⟨en, p, ""⟩ template) with
    | .error f =>
      -- Only what is not there is passed over, and not what fails.
      if ignoreMissing && (f.kind == .notFound || f.kind == .noneFound) then return
      else throw f
    | .ok s =>
      if withContext then
        let ctx ← Run.newContext (Engine.contextFor s (← Run.nested p))
        Run.write (← en.run (.root s.path ctx))
      else
        let id ← en.sharedModule s
        Run.writeWhole (((← get).modules[id]?).getD default).text
  | .importAll template name withContext => do
    let s ← en.fetch p.template (← template.eval ⟨en, p, ""⟩)
    Run.writeName p name (.object .module (← en.moduleOf p s withContext))
    publish p [name] false
  | .importNames template names withContext line => do
    let s ← en.fetch p.template (← template.eval ⟨en, p, ""⟩)
    let id ← en.moduleOf p s withContext
    takeNames p (((← get).modules[id]?).getD default) line names
    publish p (names.map Prod.snd) false
  | .inherit template _ => do
    if ← Run.isSilent p then
      Run.fail .runtime "extended multiple times"
    else
      let s ← en.fetch p.template (← template.eval ⟨en, p, ""⟩)
      adopt p s
  | .assign target value => do
    checkSpaces p target.spaces
    target.write p (← value.eval ⟨en, p, ""⟩)
    publish p (target.names.map Prod.fst) true
  | .capture target filter body => do
    inScope p (Scope.ofBody p.scopes [] body) fun q => do
      let q := { q with yieldsToParent := false }
      let text ← Run.capture false (Stmt.execAll en q body)
      let v ← match filter with
        | none => pure (Value.text text)
        | some f => f.eval ⟨en, q, text⟩
      target.write p v
    publish p (target.names.map Prod.fst) true
  | .setting value body =>
    inScope p (Scope.ofSetting p.scopes value body) fun q => do
      let _ ← value.eval ⟨en, q, ""⟩
      Stmt.execAll en q body

/-- Runs statements. -/
def Stmt.execAll (en : Engine) (p : Place) : List Stmt → Run Unit
  | [] => return
  | s :: ss => do
    s.exec en p
    Stmt.execAll en p ss

/-- Runs the body of the first choice whose test holds, and tells whether there
was one. -/
def Stmt.execFirst (en : Engine) (p : Place) : List Stmt → Run Bool
  | .branch test body _ _ :: ss => do
    if ← (← test.eval ⟨en, p, ""⟩).truth then
      Stmt.execAll en p body
      return true
    else Stmt.execFirst en p ss
  | _ => return false
end

/-- Gives the parameters of a macro that have no value their defaults. -/
def fillDefaults (en : Engine) (p : Place) (level : Nat) : List Parameter → Run Unit
  | [] => return
  | (name, default) :: rest => do
    match ← Run.slot? p (level, name) with
    | some _ => pure ()
    | none =>
      let v ← match default with
        | some e => e.eval ⟨en, p, ""⟩
        | none => pure (Run.notThere s!"parameter {Text.quoted name} was not provided")
      Run.setSlot p (level, name) (some v)
    fillDefaults en p level rest

/-- Runs a macro with values for some of its parameters. -/
def invoke (en : Engine) (m : Macro) (given : List (String × Value)) : Run Unit := do
  let level := m.place.scopes.length - 1
  let act ← Run.activate level (some m.place.activation)
  let p := { m.place with activation := act }
  for (name, v) in given do
    Run.setSlot p (level, name) (some v)
  Run.enter p
  fillDefaults en p level m.parameters
  Stmt.execAll en p m.body

/-- Runs a template, and then its parent if it has one. -/
def runRoot (en : Engine) (s : Page) (context : Nat) : Run Unit := do
  let act ← Run.activate 0 none
  let takesSelf := readsFree "self" s.body
  let scope := Scope.ofBody [] (if takesSelf then ["self"] else []) s.body
  let p : Place := ⟨s.path, [scope], act, context, true, inherits s.body⟩
  if takesSelf then Run.setSlot p (0, "self") (some (.object .blocks context)) else pure ()
  Run.enter p
  Stmt.execAll en p s.body
  let a := ((← get).activations[act]?).getD default
  match a.parent with
  | none => return
  | some parent => Run.write (← en.run (.root parent context))

/-- Runs a block. -/
def runBody (en : Engine) (ref : BlockRef) (b : Block) (context : Nat) : Run Unit := do
  let act ← Run.activate 0 none
  let special := (freeAmong ["self", "super"] (Stmt.mentionsOf b.body)).eraseDups
  let p : Place := ⟨ref.template, [Scope.ofBody [] special b.body], act, context, false, false⟩
  if special.contains "self" then
    Run.setSlot p (0, "self") (some (.object .blocks context))
  else pure ()
  if special.contains "super" then
    let c ← Run.context context
    let stack := (c.blocks.lookup b.name).getD []
    let above ← Run.blockAbove ⟨b.name, context, stack, stack.idxOf ref⟩
    Run.setSlot p (0, "super") (some above)
  else pure ()
  Run.enter p
  Stmt.execAll en p b.body

/-- Runs a recursive loop. -/
def runAgain (en : Engine) (site : LoopSite) (items : Value) (depth : Nat) : Run Unit := do
  let outer := site.place
  let act ← Run.activate outer.scopes.length (some outer.activation)
  let p := { outer with activation := act }
  Loop.runOver en {
    place := p
    target := site.target
    test := site.test
    isExtended := true
    scope := Scope.ofLoop p.scopes ["loop"] site.target site.body
    site := some site
    depth := depth
    body := fun q => Stmt.execAll en q site.body
    otherwise := inScope p (Scope.ofBody p.scopes [] site.otherwise) fun q =>
      Stmt.execAll en q site.otherwise } items

/-- Runs a job. -/
def perform (en : Engine) (job : Job) : Run String :=
  Run.capture true do
    match job with
    | .root template context =>
      let s ← Run.ofOutcome (en.library.load template)
      runRoot en s context
    | .block ref context =>
      let s ← Run.ofOutcome (en.library.load ref.template)
      match s.block? ref.block with
      | some b => runBody en ref b context
      | none => return
    | .invoke id given => invoke en (((← get).macros[id]?).getD default) given
    | .again site items depth => runAgain en site items depth

/-- Runs a job that may lead to a number of others, one in another. -/
def runJob (lib : Library) : Nat → Job → Run String
  | 0, _ => Run.fail .tooDeep "maximum recursion depth exceeded"
  | n + 1, job => perform ⟨lib, runJob lib n⟩ job

end Template

end Stencil
