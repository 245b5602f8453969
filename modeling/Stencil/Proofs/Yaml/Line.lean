import Stencil.Yaml.Node.Value

/-!
# Documents of One Line

A line with a key and a text is a map of one entry.

A document is composed while its tokens are found, and every question about
the token in front may find more of them. Read as one computation this is out
of reach, so the line is cut where the stream of tokens is known: before the
map, before its key, before its value, behind it, and at the end of the text.
Between two such places a run of the composition is a small fact, and
`run_bind_eq` puts the runs together.

What is found for the value depends on the text that follows the key, and so
do the runs that meet it. They are the fields of `Line`; all else holds for any
text.

## Main definitions

* `Line`: The tokens that a line of a file is found to have.

## Theorems

* `Compose.run_bind_eq`: Two compositions run one after the other.
* `Line.load`: A line with a key and a text is a map of one entry.
-/

namespace Stencil

namespace Yaml

open Compose

/-- Two computations one after the other. -/
theorem bind_eq {α β : Type} {x : Except Fault α} {f : α → Except Fault β} {a : α}
    {r : Except Fault β} (h : x = .ok a) (hf : f a = r) : (x >>= f) = r := by
  rw [h]
  exact hf

/-- Two compositions one after the other. -/
theorem Compose.run_bind_eq {α β : Type} {x : Compose α} {f : α → Compose β}
    {c c' : Composition} {a : α} {r : Except Fault (β × Composition)}
    (h : x.run c = .ok (a, c')) (hf : (f a).run c' = r) : (x >>= f).run c = r := by
  rw [StateT.run_bind, h]
  exact hf

/-- Asking for the token in front finds tokens and does nothing else. -/
theorem Compose.run_peek {c : Composition} {t : Token} {s : TokenStream}
    (h : c.tokens.peek = .ok (t, s)) : Compose.peek.run c = .ok (t, { c with tokens := s }) := by
  simp only [Compose.peek, StateT.run_bind, StateT.run_get, StateT.run_monadLift, pure_bind, h]
  rfl

namespace Line

/-- A line that starts with the key. -/
def chars (rest : List Char) : List Char :=
  ['e', 'x', 't', 'e', 'n', 's', 'i', 'o', 'n', ':', ' '] ++ rest

/-- The tokens of a line are found up to the value. -/
def atMap (rest : List Char) : TokenStream :=
  ⟨⟨' ' :: rest, 10, 0, 10⟩, false, 0, [.mapStart, .key, .scalar "extension" true, .value], 0, 0,
    [-1], false, []⟩

/-- The start of the map was taken. -/
def atKey (rest : List Char) : TokenStream :=
  ⟨⟨' ' :: rest, 10, 0, 10⟩, false, 0, [.key, .scalar "extension" true, .value], 1, 0, [-1],
    false, []⟩

/-- The key was taken. -/
def atValue (rest : List Char) : TokenStream :=
  ⟨⟨' ' :: rest, 10, 0, 10⟩, false, 0, [.value], 3, 0, [-1], false, []⟩

/-- The value was taken, and nothing but the end of the line is left. -/
def atBreak (length : Nat) : TokenStream :=
  ⟨⟨['\n'], length, 0, length⟩, false, 0, [], 5, 0, [-1], false, []⟩

/-- The map was taken, and the text has ended. -/
def atFinish (length : Nat) : TokenStream :=
  ⟨⟨[], length, 1, 0⟩, true, 0, [.finish], 6, -1, [], false, []⟩

/-- The state of a composition that knows no names. -/
def state (tokens : TokenStream) : Composition :=
  ⟨tokens, usualHandles, []⟩

/-- The node of the line. -/
def entry (value : String) : Node × Node :=
  (.scalar .text "extension", .scalar .text value)

theorem run_peek_atMap (rest : List Char) :
    Compose.peek.run (state (atMap rest)) = .ok (.mapStart, state (atMap rest)) :=
  rfl

theorem run_properties (rest : List Char) :
    properties.run (state (atMap rest)) = .ok ((none, none), state (atMap rest)) :=
  rfl

theorem run_bound (rest : List Char) :
    bound.run (state (atMap rest)) = .ok (4 * rest.length + 28, state (atMap rest)) :=
  rfl

theorem run_skip (rest : List Char) :
    Compose.skip.run (state (atMap rest)) = .ok ((), state (atKey rest)) :=
  rfl

theorem run_peek_atKey (rest : List Char) :
    Compose.peek.run (state (atKey rest)) = .ok (.key, state (atKey rest)) :=
  rfl

theorem run_key (rest : List Char) (n : Nat) :
    (blockPart (node (n + 1) true true)).run (state (atKey rest)) =
      .ok (.scalar .text "extension", state (atValue rest)) :=
  rfl

theorem run_isAt_value (rest : List Char) :
    (isAt [.value]).run (state (atValue rest)) = .ok (true, state (atValue rest)) :=
  rfl

theorem run_isAt_documentEnd (length : Nat) :
    (isAt [.documentEnd]).run (state (atFinish length)) = .ok (false, state (atFinish length)) :=
  rfl

theorem run_startDocument (length : Nat) :
    startDocument.run (state (atFinish length)) = .ok (false, state (atFinish length)) :=
  rfl

theorem splitMerges_entry (value : String) (n : Nat) :
    Node.merged (n + 1) [entry value] = .ok [entry value] := by
  rw [entry, Node.merged, Node.splitMerges, Node.splitMerges]
  rfl

/-- The value of the node. -/
theorem value_entry (value : String) : (Node.map .map [entry value]).value =
    .ok (.map [(.text "extension", .text value)]) := by
  have hentries : (Node.map .map [entry value]).entries = .ok [entry value] :=
    splitMerges_entry value 199
  have hinside : Node.checkInside (.map .map [entry value]) = .ok [] :=
    bind_eq hentries rfl
  have hlevels : Node.checkLevels 203 [.map .map [entry value]] = .ok () :=
    bind_eq (bind_eq hinside rfl) rfl
  have hpairs : [entry value].mapM (fun p : Node × Node => do
      let k ← Node.build 2 p.1
      return (k, ← Node.build 2 p.2)) = .ok [(.text "extension", .text value)] :=
    rfl
  have hbuild : Node.build 3 (.map .map [entry value]) =
      .ok (.map [(.text "extension", .text value)]) :=
    bind_eq hentries (bind_eq hpairs rfl)
  exact bind_eq rfl (bind_eq hlevels hbuild)

end Line

/-- What is found of a line with the key: its value, and that nothing follows
it. -/
structure Line (rest : List Char) (value : String) (length : Nat) : Prop where
  /-- The characters can stand in a text. -/
  readable : (Line.chars rest).all isReadable = true
  /-- A map starts with the line. -/
  start : (TokenStream.ofList (Line.chars rest)).peek = .ok (.mapStart, Line.atMap rest)
  /-- The value is a text in quotes. -/
  value : ∀ n, (blockPart (node (n + 1) true true)).run (Line.state (Line.atValue rest)) =
    .ok (.scalar .text value, Line.state (Line.atBreak length))
  /-- There is no other entry. -/
  finish : ∀ item n, (blockEntries item (n + 1)).run (Line.state (Line.atBreak length)) =
    .ok ([], Line.state (Line.atFinish (length + 1)))

namespace Line

variable {rest : List Char} {value : String} {length : Nat}

theorem run_blockEntries (h : Line rest value length) (n m : Nat) :
    (blockEntries (node (n + 1) true true) (m + 2)).run (state (atKey rest)) =
      .ok ([entry value], state (atFinish (length + 1))) := by
  rw [blockEntries]
  refine run_bind_eq (run_peek_atKey rest) ?_
  refine run_bind_eq (run_key rest n) ?_
  refine run_bind_eq (run_isAt_value rest) ?_
  refine run_bind_eq (h.value n) ?_
  exact run_bind_eq (h.finish _ m) rfl

theorem run_node (h : Line rest value length) (n : Nat) :
    (node (n + 2) true false).run (state (atMap rest)) =
      .ok (.map .map [entry value], state (atFinish (length + 1))) := by
  have hentries : StateT.run (do
      skip
      blockEntries (node (n + 1) true true) (4 * rest.length + 28)) (state (atMap rest)) =
        .ok ([entry value], state (atFinish (length + 1))) :=
    run_bind_eq (run_skip rest) (h.run_blockEntries n _)
  have hmap : StateT.run (Node.map .map <$> (do
      skip
      blockEntries (node (n + 1) true true) (4 * rest.length + 28))) (state (atMap rest)) =
        .ok (.map .map [entry value], state (atFinish (length + 1))) := by
    rw [StateT.run_map, hentries]
    rfl
  rw [node]
  refine run_bind_eq (run_peek_atMap rest) ?_
  refine run_bind_eq (run_properties rest) ?_
  refine run_bind_eq rfl ?_
  refine run_bind_eq (run_bound rest) ?_
  refine run_bind_eq (run_peek_atMap rest) ?_
  -- There is no name to be given to the map.
  change StateT.run (collection none (Node.map .map <$> _)) _ = _
  rw [collection]
  refine run_bind_eq (show StateT.run (declare none) _ = .ok ((), state (atMap rest)) from rfl) ?_
  refine run_bind_eq (show StateT.run (name none none) _ = .ok ((), state (atMap rest)) from rfl) ?_
  exact run_bind_eq hmap rfl

theorem run_document (h : Line rest value length) :
    document.run (state (.ofList (chars rest))) =
      .ok (some (.map .map [entry value]), state (atFinish (length + 1))) := by
  have hpeek : Compose.peek.run (state (.ofList (chars rest))) =
      .ok (.mapStart, state (atMap rest)) :=
    run_peek h.start
  have hnode : StateT.run (do node (← bound) true false) (state (atMap rest)) =
      .ok (.map .map [entry value], state (atFinish (length + 1))) :=
    run_bind_eq (run_bound rest) (h.run_node _)
  have hfound : StateT.run (some <$> (do node (← bound) true false)) (state (atMap rest)) =
      .ok (some (.map .map [entry value]), state (atFinish (length + 1))) := by
    rw [StateT.run_map, hnode]
    rfl
  refine run_bind_eq hpeek (run_bind_eq hfound ?_)
  exact run_bind_eq (run_isAt_documentEnd _) (run_bind_eq (run_startDocument _) rfl)

/-- A line with a key and a text is a map of one entry. -/
theorem load (h : Line rest value length) :
    Yaml.load (String.ofList (chars rest)) = .ok (.map [(.text "extension", .text value)]) := by
  have hnode : Node.ofText (String.ofList (chars rest)) = .ok (some (.map .map [entry value])) := by
    rw [Node.ofText, String.toList_ofList, if_pos h.readable]
    change Except.map Prod.fst (document.run (state (.ofList (chars rest)))) = _
    rw [h.run_document]
    rfl
  exact bind_eq hnode (value_entry value)

end Line

end Yaml

end Stencil
