import Stencil.Proofs.Reference.Forgiving
import Stencil.Proofs.Reference.Lookup
import Stencil.Proofs.Render.Loads
import Stencil.Proofs.Template.Piece
import Stencil.Proofs.Text.Breaks

/-!
# Includes Without a Template

What an include that was passed over leads to when its template is rendered.

Two look-ups decide about one name. The first is made while the graph is built.
It knows the templates that can be referred to, and an include that forgives a
missing target is passed over if it finds nothing. The second is made by the
render, for a name that has no entry in the table. It takes the name for a path
and looks among the texts of the query and of its closure.

The two nearly agree. A member of a closure can be referred to, and its path
leads to it from everywhere, because every search comes to the root and a path
is its own key there. So a name that the first look-up did not find is not the
path of a member. Two names are left for which the second look-up can find
something. One is the path of the query itself, which cannot be referred to but
is a text of its own render. The other is a name that is not read as it stands:
the scanner takes the characters between the quotes, and a template takes what
they stand for.

## Main definitions

* `Directive.Reads`: What the name of a reference is read as in a template.
* `Directive.Escaped`: The name may be read as another.

## Theorems

* `Directive.reads_iff`: A name without escapes is read as it stands.
* `Catalog.candidates_path_ne_nil`: A path leads to its template.
* `Template.Stmt.exec_embed_missing`: What an include without a text does.
* `Graph.include_stays_missing`: What was passed over leads nowhere else.
-/

namespace Stencil

namespace Template

theorem quotedLength?_plain {quote : Char} {cs : List Char} (hslash : '\\' ∉ cs)
    (hquote : quote ∉ cs) (rest : List Char) (hne : quote ≠ '\\') :
    quotedLength? quote (cs ++ quote :: rest) = some (cs.length + 1) := by
  induction cs with
  | nil =>
      rw [List.nil_append, quotedLength?.eq_3]
      · rw [if_pos (beq_self_eq_true quote)]
        rfl
      · exact fun _ _ h => absurd h hne
  | cons c cs ih =>
      rw [List.mem_cons, not_or] at hslash hquote
      rw [List.cons_append, quotedLength?.eq_3]
      · rw [if_neg (mt beq_iff_eq.mp (Ne.symm hquote.1)), ih hslash.2 hquote.2]
        rfl
      · exact fun _ _ h => absurd h.symm hslash.1

/-- A text in quotes without escapes stands for itself. -/
theorem stringPiece?_plain {q : Reference.Quote} {cs : List Char} (hslash : '\\' ∉ cs)
    (hquote : q.char ∉ cs) (line : Nat) (opened : List Symbol) :
    stringPiece? line opened (q.char :: (cs ++ [q.char])) =
      some (.ok ⟨some (.string (String.ofList cs)), cs.length + 2, opened⟩) := by
  have hne : q.char ≠ '\\' := by cases q <;> decide
  have hmark : (q.char == '\'' || q.char == '"') = true := by cases q <;> rfl
  rw [stringPiece?, if_pos hmark, quotedLength?_plain hslash hquote [] hne, Option.map_some,
    Nat.add_sub_cancel, List.take_left, unescape_plain hslash]

/-- What is tried and fails leaves everything as it was. -/
theorem attempt_run_error {α : Type} {act : Run α} {st : Store} {f : Failure}
    (h : act.run st = .error f) : (attempt act).run st = .ok (.error f, st) := by
  change attempt act st = _
  rw [attempt, show act st = .error f from h]

/-- What an include does whose name leads to no text: it writes nothing, and
    nothing else is changed. -/
theorem Stmt.exec_embed_missing {en : Engine} {p : Place} {name path : String}
    (h : en.library.load (en.library.join p.template name) = .error ⟨.notFound, path⟩)
    (withContext : Bool) (st : Store) :
    ((Stmt.embed (.const (.text name)) withContext true).exec en p).run st = .ok ((), st) := by
  have hfetch : (embedded ⟨en, p, ""⟩ (.const (.text name))).run st =
      .error ⟨.notFound, path⟩ := by
    change (en.fetch p.template (.text name)).run st = _
    rw [Engine.fetch_text, h]
    rfl
  rw [Stmt.exec]
  exact Run.bind_eq_ok.mpr ⟨_, _, attempt_run_error hfetch, rfl⟩

end Template

namespace Directive

/-- The name of the reference, in quotes of either kind, is read in a template
    as a text. -/
def Reads (d : Directive) (name : String) : Prop :=
  ∃ (q : Reference.Quote) (count : Nat), q.char ∉ d.name.toList ∧
    Template.stringPiece? d.line [] (q.char :: (Text.unifyBreaks d.name.toList ++ [q.char])) =
      some (.ok ⟨some (.string name), count, []⟩)

/-- The name has a character that a template may read as another: a backslash,
    or a carriage return. -/
def Escaped (d : Directive) : Prop :=
  '\\' ∈ d.name.toList ∨ '\r' ∈ d.name.toList

instance (d : Directive) : Decidable d.Escaped :=
  inferInstanceAs (Decidable (_ ∨ _))

/-- A name without escapes is read as it stands. -/
theorem reads_iff {d : Directive} (hplain : ¬ d.Escaped)
    (hquote : ∃ q : Reference.Quote, q.char ∉ d.name.toList) (name : String) :
    d.Reads name ↔ name = d.name := by
  rcases not_or.mp hplain with ⟨hslash, hbreak⟩
  rw [Reads, Text.unifyBreaks_of_notMem hbreak]
  constructor
  · rintro ⟨q, count, hq, hread⟩
    rw [Template.stringPiece?_plain hslash hq, String.ofList_toList] at hread
    injection hread with hread
    injection hread with hread
    injection hread with htoken
    injection htoken with htoken
    injection htoken with hname
    exact hname.symm
  · rintro rfl
    rcases hquote with ⟨q, hq⟩
    refine ⟨q, d.name.toList.length + 2, hq, ?_⟩
    rw [Template.stringPiece?_plain hslash hq, String.ofList_toList]

end Directive

namespace Reference

/-- The name of a reference that was scanned does not have its own quote. -/
theorem exists_quote_of_mem_scan {text : String} {d : Directive} (h : d ∈ scan text) :
    ∃ q : Quote, q.char ∉ d.name.toList := by
  rw [scan_eq] at h
  rcases List.mem_filterMap.mp h with ⟨m, _, hm⟩
  rw [Mention.directive?, directive?] at hm
  cases hliteral : literal? m.argument with
  | none => simp only [hliteral, reduceCtorEq] at hm
  | some read =>
      rcases read with ⟨name, rest⟩
      rcases eq_of_literal? hliteral with ⟨q, _, hname⟩
      simp only [hliteral] at hm
      split at hm
      · rw [← Option.some.inj hm]
        exact ⟨q, by rwa [String.toList_ofList]⟩
      · exact absurd hm (Option.some_ne_none _).symm

theorem slashed_of_notMem {name : String} (h : '\\' ∉ name.toList) : slashed name = name := by
  have hsame : ∀ c ∈ name.toList, (if c = '\\' then '/' else c) = id c := by
    intro c hc
    exact if_neg (fun heq : c = '\\' => h (heq ▸ hc))
  rw [slashed, Text.mapChars, List.map_congr_left hsame, List.map_id, String.ofList_toList]

/-- Every search comes to the root. -/
theorem root_mem_locations {way : List String} (hne : way ≠ []) (h : ∀ n ∈ way, IsName n)
    (shared : Option String) : "" ∈ locations (directoryOf (wayText way)) shared := by
  have hown := root_mem_placesAbove (wayText way)
  rw [← ancestors_directoryOf hne h] at hown
  cases shared with
  | none => exact hown
  | some dir =>
      simp only [locations]
      split
      · exact hown
      · exact List.mem_append_left _ hown

end Reference

/-- A path leads to its template, from any template that has a name: what it
    means is never nothing. -/
theorem Catalog.candidates_path_ne_nil {c : Catalog} {config : Config} {s importer : Source}
    (hs : s ∈ c.importables) (hnamed : s.Named) (himporter : importer.Named) {d : Directive}
    (hname : d.name = s.path) (hslash : '\\' ∉ d.name.toList) :
    (c.resolver config).candidates (importer.path, d) ≠ [] := by
  rcases hnamed with ⟨way, hne, hnames, hpath⟩
  rcases himporter with ⟨dirs, hdirs, hdirsNames, hdirsPath⟩
  have hreplace : Text.replaceAll "\\" "/" d.name = d.name :=
    (Text.replaceAll_char '\\' '/' d.name).trans (Reference.slashed_of_notMem hslash)
  have hrelative : IsRelative d.name := by
    rw [hname, hpath]
    exact Reference.isRelative_wayText hne hnames
  have hplan : Reference.searchPlan (directoryOf importer.path) config.partialsDir d.name =
      (Reference.locations (directoryOf importer.path) config.partialsDir, d.name) := by
    rw [Reference.searchPlan, hreplace, if_neg (isRelative_iff.mp hrelative)]
  intro hnil
  have hfound := Resolver.search_eq_nil_iff.mp hnil
  simp only [resolver, Resolver.ofCatalog, hplan] at hfound
  have hroot := hfound "" (by
    rw [hdirsPath]
    exact Reference.root_mem_locations hdirs hdirsNames _)
  -- At the root the template is found under its path.
  have hmem : s.path ∈ (Resolver.ofCatalog c config.partialsDir).foundAt d.name "" := by
    refine Resolver.mem_foundAt.mpr ⟨s.path, ?_, Resolver.mem_index_ofCatalog.mpr
      ⟨s, hs, rfl, Or.inl rfl⟩⟩
    rw [hname, hpath]
    exact Reference.keyAt?_root hne hnames
  rw [Resolver.ofCatalog, hroot] at hmem
  exact List.not_mem_nil hmem

namespace Graph

variable {c : Catalog} {config : Config}

/-- A reference that means nothing has no entry in the table. -/
theorem resolve_eq_none_of_candidates {importer : String} {d : Directive}
    (h : (c.resolver config).candidates (importer, d) = []) :
    (ofCollected c config).resolve importer d.name = none := by
  rcases hentry : (ofCollected c config).resolve importer d.name with _ | t
  · rfl
  · rcases ((exact_ofCollected c config).resolve_eq_some _ _ _).mp hentry with
      ⟨o, _, hpath, hname, hcand⟩
    -- The entry is about the same name in the same template.
    have hkey : Resolver.keyOf o = Resolver.keyOf (importer, d) := Prod.ext hpath hname
    rw [Resolver.candidates_congr hkey, h] at hcand
    exact absurd hcand.symm (List.cons_ne_nil t [])

/-- A reference that means nothing is not the path of a member of a closure. -/
theorem notMem_closure_of_candidates (hc : c.Named) {query : String} {closure : List String}
    (hclosure : (ofCollected c config).IsClosure query closure) {importer : Source}
    (himporter : importer ∈ c.sources) {d : Directive}
    (h : (c.resolver config).candidates (importer.path, d) = []) (hslash : '\\' ∉ d.name.toList) :
    d.name ∉ closure := by
  intro hmem
  rcases importable_of_reaches ((hclosure.mem_iff _).mp hmem) with ⟨s, hs, hpath⟩
  exact Catalog.candidates_path_ne_nil hs (hc s (List.mem_filter.mp hs).1)
    (hc importer himporter) hpath.symm hslash h

/-- What a render of a query sees are the texts of the query and its closure. -/
theorem exists_texts {g : Graph} {query : Source} (hg : Graph.build c config = .ok g)
    (hquery : query ∈ g.queries) :
    g = ofCollected c config ∧ ∃ closure texts, g.closure? query.path = some closure ∧
      (ofCollected c config).IsClosure query.path closure ∧
      g.sourcesFor query.path closure = .ok texts ∧
      ∀ p, p ∈ texts.map Prod.fst ↔ p ∈ query.path :: closure := by
  rcases build_eq_ok_iff.mp hg with ⟨_, rfl, hcycle⟩
  rcases exists_closure? (hcycle query hquery) with ⟨closure, hclosure?, hclosure⟩
  have hhas : c.has query.path = true :=
    Catalog.has_iff.mpr ⟨query, (List.mem_filter.mp hquery).1, rfl⟩
  rcases exists_sourcesFor hhas hclosure with ⟨texts, htexts⟩
  refine ⟨rfl, closure, texts, hclosure?, hclosure, htexts, fun p => ?_⟩
  rw [paths_sourcesFor _ _ _ _ htexts, List.mem_cons, List.mem_cons, mem_sortedSet]

/-- What a name leads to in a render: its entry, or itself. -/
theorem join_library {g : Graph} {context : List (String × Datum)} {query p : String}
    {texts : List (String × String)} (hp : p ∈ texts.map Prod.fst) (name : String) :
    (g.library context query texts).join p name = (g.resolve p name).getD name := by
  rw [Template.Library.join, library, Template.Library.ofTexts, lookup_linksOf hp]

section Lone

/-- A query that includes something and forgives that it is missing. -/
def loneQuery (name : String) : Source :=
  ⟨"a.sql.tmpl", ⟨"/", ["a.sql.tmpl"]⟩, .query, ".sql.tmpl",
    "\x7b% include '" ++ name ++ "' ignore missing %\x7d", ""⟩

/-- A catalog with nothing else. -/
def lone (name : String) : Catalog :=
  ⟨⟨"/", []⟩, [loneQuery name]⟩

variable {name : String}

theorem named_lone : (lone name).Named := by
  intro s hs
  rw [List.mem_singleton.mp hs]
  exact ⟨["a.sql.tmpl"], by decide, by decide, rfl⟩

/-- Nothing in it can be referred to. -/
theorem candidates_lone (o : Occurrence) : ((lone name).resolver config).candidates o = [] := by
  refine List.eq_nil_iff_forall_not_mem.mpr (fun path hpath => ?_)
  rcases Catalog.importable_of_candidate hpath with ⟨s, hs, _⟩
  exact absurd hs List.not_mem_nil

theorem build_lone
    (hscan : Reference.scan (loneQuery name).content = [⟨name, .includes, 1, true⟩])
    (config : Config) : Graph.build (lone name) config = .ok (ofCollected (lone name) config) := by
  refine build_eq_ok_iff.mpr ⟨fun o ho hfails => ?_, rfl, fun q _ hcycle => ?_⟩
  · rcases Catalog.mem_occurrences.mp ho with ⟨s, hs, _, hd⟩
    rw [List.mem_singleton.mp hs, hscan, List.mem_singleton] at hd
    rw [Resolver.Fails, candidates_lone, hd] at hfails
    simp at hfails
  · rcases hcycle with ⟨v, _, hv⟩
    rcases importable_of_reaches hv with ⟨s, hs, _⟩
    exact absurd hs List.not_mem_nil

end Lone

/-- What was passed over leads nowhere else. Take the graph of a catalog whose
    templates have paths, a query of it, and a reference of the query or of a
    template in its closure that means nothing. It forgives that, since the
    graph was built. Its name is read as it stands unless it has escapes. A
    render of the query then has a text for the name just if it is read as the
    path of the query itself, or if it has escapes and is read as another name
    that has an entry or is the path of a member of the closure. Where there is
    no text, the include writes nothing and changes nothing. -/
theorem include_stays_missing {g : Graph} {query : Source} (hc : c.Named)
    (hg : Graph.build c config = .ok g) (hquery : query ∈ g.queries)
    (context : List (String × Datum)) :
    ∃ closure texts, g.closure? query.path = some closure ∧
      g.sourcesFor query.path closure = .ok texts ∧
      ∀ en : Template.Engine, en.library = g.library context query.path texts →
        ∀ importer ∈ c.sources, importer.path ∈ query.path :: closure →
          ∀ d ∈ Reference.scan importer.content,
            (c.resolver config).candidates (importer.path, d) = [] →
            d.optional = true ∧ (¬ d.Escaped → ∀ name, d.Reads name ↔ name = d.name) ∧
            ∀ name, d.Reads name →
              (en.library.join importer.path name ∈ texts.map Prod.fst ↔
                name = query.path ∨ d.Escaped ∧
                  (name ∈ closure ∨ ∃ t, g.resolve importer.path name = some t)) ∧
              (en.library.join importer.path name ∉ texts.map Prod.fst →
                ∀ p : Template.Place, p.template = importer.path → ∀ withContext st,
                  ((Template.Stmt.embed (.const (.text name)) withContext true).exec en p).run st =
                    .ok ((), st)) := by
  have hfine := (build_eq_ok_iff.mp hg).1
  rcases exists_texts hg hquery with ⟨rfl, closure, texts, hclosure?, hclosure, htexts, hkeys⟩
  refine ⟨closure, texts, hclosure?, htexts,
    fun en hlib importer himporter hin d hd hnil => ?_⟩
  have hoptional : d.optional = true := by
    have hoccurs : (importer.path, d) ∈ c.occurrences :=
      Catalog.mem_occurrences.mpr ⟨importer, himporter, rfl, hd⟩
    rw [← Bool.not_eq_false]
    exact fun hfails => hfine _ hoccurs (Or.inr ⟨hnil, hfails⟩)
  have hreads : ¬ d.Escaped → ∀ name, d.Reads name ↔ name = d.name :=
    fun hplain => Directive.reads_iff hplain (Reference.exists_quote_of_mem_scan hd)
  refine ⟨hoptional, hreads, fun name hname => ⟨?_, fun hmissing p hp withContext st => ?_⟩⟩
  · rw [hlib, join_library ((hkeys _).mpr hin), hkeys, List.mem_cons]
    by_cases hplain : d.Escaped
    · rw [and_iff_right hplain]
      rcases hentry : (ofCollected c config).resolve importer.path name with _ | t
      · simp only [Option.getD_none, reduceCtorEq, exists_false, or_false]
      · have hto := mem_closure_of_resolve hclosure hin hentry
        simp only [Option.getD_some, hto, or_true, Option.some.injEq, exists_eq']
    · -- The name is the one that was looked up, so it has no entry.
      have hslash : '\\' ∉ d.name.toList := (not_or.mp hplain).1
      rw [(hreads hplain name).mp hname, resolve_eq_none_of_candidates hnil, Option.getD_none,
        or_iff_left (notMem_closure_of_candidates hc hclosure himporter hnil hslash),
        or_iff_left (fun h => hplain h.1)]
  · have hnone : texts.lookup (en.library.join importer.path name) = none := by
      rw [List.lookup_eq_none_iff]
      intro t ht
      rw [bne_iff_ne]
      exact fun heq => hmissing (heq ▸ List.mem_map_of_mem ht)
    have hload : en.library.load (en.library.join p.template name) =
        .error ⟨.notFound, en.library.join importer.path name⟩ := by
      -- The path of the failure names the library too, and stays as it is.
      rw [hp]
      nth_rewrite 1 [hlib]
      exact Template.Library.load_ofTexts_none texts _ _ _ hnone
    exact Template.Stmt.exec_embed_missing hload withContext st

/-- A query that includes itself by its path was passed over, and has a text. -/
theorem not_include_stays_missing : ¬ ∀ (c : Catalog) (config : Config) (g : Graph)
    (query : Source) (context : List (String × Datum)) (closure : List String)
    (texts : List (String × String)), c.Named → Graph.build c config = .ok g →
    query ∈ g.queries → g.closure? query.path = some closure →
    g.sourcesFor query.path closure = .ok texts →
    ∀ importer ∈ c.sources, importer.path ∈ query.path :: closure →
    ∀ d ∈ Reference.scan importer.content,
    (c.resolver config).candidates (importer.path, d) = [] → ∀ name, d.Reads name →
      (g.library context query.path texts).join importer.path name ∉ texts.map Prod.fst := by
  intro h
  have hscan : Reference.scan (loneQuery "a.sql.tmpl").content =
      [⟨"a.sql.tmpl", .includes, 1, true⟩] := by
    decide
  have hbuild := build_lone hscan Config.default
  have hquery : loneQuery "a.sql.tmpl" ∈
      (ofCollected (lone "a.sql.tmpl") Config.default).queries :=
    List.mem_singleton_self _
  rcases exists_texts hbuild hquery with ⟨_, closure, texts, hclosure?, _, htexts, hkeys⟩
  have hself : (loneQuery "a.sql.tmpl").path ∈ texts.map Prod.fst :=
    (hkeys _).mpr List.mem_cons_self
  have hread : (⟨"a.sql.tmpl", .includes, 1, true⟩ : Directive).Reads "a.sql.tmpl" :=
    (Directive.reads_iff (by decide) ⟨.single, by decide⟩ _).mpr rfl
  refine h _ _ _ _ [] closure texts named_lone hbuild hquery hclosure? htexts _
    (List.mem_singleton_self _) List.mem_cons_self _ (hscan ▸ List.mem_singleton_self _)
    (candidates_lone _) _ hread ?_
  have hnone : (ofCollected (lone "a.sql.tmpl") Config.default).resolve
      (loneQuery "a.sql.tmpl").path "a.sql.tmpl" = none :=
    resolve_eq_none_of_candidates
      (candidates_lone (_, ⟨"a.sql.tmpl", .includes, 1, true⟩))
  rw [join_library hself, hnone]
  exact hself

/-- A query that includes something else has no text for it. -/
theorem include_stays_missing_lone : ∃ closure texts,
    (ofCollected (lone "b") Config.default).closure? "a.sql.tmpl" = some closure ∧
      (ofCollected (lone "b") Config.default).sourcesFor "a.sql.tmpl" closure = .ok texts ∧
      ∀ en : Template.Engine, en.library =
          (ofCollected (lone "b") Config.default).library [] "a.sql.tmpl" texts →
        en.library.join "a.sql.tmpl" "b" ∉ texts.map Prod.fst ∧
          ∀ p : Template.Place, p.template = "a.sql.tmpl" → ∀ st,
            ((Template.Stmt.embed (.const (.text "b")) true true).exec en p).run st =
              .ok ((), st) := by
  have hscan : Reference.scan (loneQuery "b").content = [⟨"b", .includes, 1, true⟩] := by
    decide
  rcases include_stays_missing named_lone (build_lone hscan Config.default)
    (List.mem_singleton_self (loneQuery "b")) [] with
    ⟨closure, texts, hclosure, htexts, hmissing⟩
  refine ⟨closure, texts, hclosure, htexts, fun en hlib => ?_⟩
  rcases hmissing en hlib _ (List.mem_singleton_self (loneQuery "b")) List.mem_cons_self _
    (hscan ▸ List.mem_singleton_self _) (candidates_lone _) with ⟨_, hreads, hname⟩
  have hplain : ¬ (⟨"b", .includes, 1, true⟩ : Directive).Escaped := by decide
  rcases hname "b" ((hreads hplain "b").mpr rfl) with ⟨htext, hrun⟩
  have hnone : en.library.join "a.sql.tmpl" "b" ∉ texts.map Prod.fst := by
    intro hmem
    rcases htext.mp hmem with heq | ⟨hescaped, _⟩
    · exact absurd heq (by decide)
    · exact hplain hescaped
  exact ⟨hnone, fun p hp st => hrun hnone p hp true st⟩

end Graph

end Stencil
