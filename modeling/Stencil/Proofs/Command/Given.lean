import Stencil.Command.Request
import Stencil.Proofs.Traverse

/-!
# What Switches are Given With

A command line that is accepted only gives what its switches take.

A word is taken for a switch only if it is a name of one, so the switches that
are found are switches of the command. An argument is accepted by the switch
that it belongs to, and a switch without an argument takes nothing. Reading goes
on word by word with a switch waiting for its argument, and both facts are kept
along the way.

## Main definitions

* `Command.Takes.Allows`: What an argument may be.
* `Command.Given.Fits`: A switch is one of some switches, and is given with an
  argument that it may have.
* `Command.Reading.Fits`: What has been read so far fits.

## Theorems

* `Command.switch_of_look`, `Command.switches_of_expand`: The switches that are
  found are among those that are looked for.
* `Command.fits_of_readFrom`: What is read fits.
* `Command.fits_of_readLine`: What a command line gives fits.
-/

namespace Stencil

namespace Command

/-- What an argument may be. -/
inductive Takes.Allows : Takes → String → Prop where
  /-- Nothing is taken. -/
  | nothing : Allows .nothing ""
  /-- Any text is. -/
  | text (hint value : String) : Allows (.text hint) value
  /-- A whole number is, and it is written out. -/
  | whole (hint : String) (n : Int) : Allows (.whole hint) n.repr
  /-- One of the words is. -/
  | oneOf {words : List String} {value : String} (h : value ∈ words) : Allows (.oneOf words) value

/-- The key is that of one of some switches, and the switch may have the
    argument. -/
def Given.Fits (switches : List Switch) (g : Given) : Prop :=
  ∃ s ∈ switches, s.key = g.1 ∧ s.takes.Allows g.2

/-- What has been read so far fits. -/
def Reading.Fits (switches : List Switch) (r : Reading) : Prop :=
  ∀ g ∈ r.given, Given.Fits switches g

section Reading

variable {switches : List Switch}

theorem fits_of_accept {s : Switch} {value : String} {g : Given} (hs : s ∈ switches)
    (htakes : s.takes.isSome = true) (h : accept s value = .ok g) : Given.Fits switches g := by
  unfold accept at h
  cases hs' : s.takes with
  | nothing =>
      rw [hs'] at htakes
      cases htakes
  | text hint =>
      simp only [hs', Except.ok.injEq] at h
      exact ⟨s, hs, by rw [← h], by rw [hs']; exact .text hint _⟩
  | whole hint =>
      simp only [hs'] at h
      rcases hn : Numeral.whole? 10 value with _ | n
      · simp only [hn, reduceCtorEq] at h
      · simp only [hn, Except.ok.injEq] at h
        refine ⟨s, hs, by rw [← h], ?_⟩
        rw [hs', ← h]
        exact .whole hint n
  | oneOf words =>
      simp only [hs'] at h
      by_cases hword : words.contains value = true
      · rw [if_pos hword, Except.ok.injEq] at h
        refine ⟨s, hs, by rw [← h], ?_⟩
        rw [hs', ← h]
        exact .oneOf (List.contains_iff_mem.mp hword)
      · rw [if_neg hword] at h
        cases h

/-- A switch that takes nothing is given with nothing. -/
theorem fits_of_bare {s : Switch} (hs : s ∈ switches) (htakes : s.takes.isSome = false) :
    Given.Fits switches (s.key, "") := by
  refine ⟨s, hs, rfl, ?_⟩
  cases hs' : s.takes with
  | nothing => exact .nothing
  | _ =>
      rw [hs'] at htakes
      cases htakes

theorem switch_of_namesOf {name : String} {s : Switch} (h : (name, s) ∈ namesOf switches) :
    s ∈ switches := by
  rcases List.mem_flatMap.mp h with ⟨t, ht, hmem⟩
  rcases List.mem_map.mp hmem with ⟨n, _, heq⟩
  rw [Prod.mk.injEq] at heq
  exact heq.2 ▸ ht

theorem switch_of_lookup {name : String} {s : Switch}
    (h : (namesOf switches).lookup name = some s) : s ∈ switches :=
  switch_of_namesOf (mem_of_lookup h)

theorem switch_of_guesses {word : String} {hit : Hit} (h : hit ∈ guesses switches word) :
    hit.switch ∈ switches := by
  unfold guesses at h
  split at h
  · rcases List.mem_map.mp h with ⟨n, hn, rfl⟩
    exact switch_of_namesOf (List.mem_filter.mp hn).1
  · rcases List.mem_map.mp h with ⟨n, hn, rfl⟩
    exact switch_of_namesOf (List.mem_filter.mp hn).1
  · exact absurd h List.not_mem_nil

/-- A word is taken for one of the switches. -/
theorem switch_of_look {word : String} {hit : Hit}
    (h : look switches word = .ok (.switch hit)) : hit.switch ∈ switches := by
  unfold look at h
  split at h
  · rcases hname : (namesOf switches).lookup word with _ | s
    · simp only [hname] at h
      split at h
      · rename_i hlookup
        cases h
        exact switch_of_lookup hlookup
      · split at h
        · split at h <;> cases h
        · rename_i hone
          cases h
          have hhit : _ ∈ guesses switches word := hone ▸ List.mem_cons_self
          exact switch_of_guesses hhit
        · cases h
    · simp only [hname] at h
      cases h
      exact switch_of_lookup hname
  · cases h

theorem switch_of_lookAll {words : List String} {looks : List (String × Look)} {word : String}
    {hit : Hit} (h : lookAll switches words = .ok looks) (hhit : (word, .switch hit) ∈ looks) :
    hit.switch ∈ switches := by
  induction words generalizing looks with
  | nil =>
      cases h
      exact absurd hhit List.not_mem_nil
  | cons w ws ih =>
      rw [lookAll] at h
      by_cases hdivider : (w == "--") = true
      · -- After the divider nothing is a switch.
        rw [if_pos hdivider] at h
        cases h
        rcases List.mem_cons.mp hhit with heq | hmem
        · cases heq
        · rcases List.mem_map.mp hmem with ⟨v, _, heq⟩
          cases heq
      · rw [if_neg hdivider] at h
        rcases hfirst : look switches w with why | l
        · simp only [hfirst, reduceCtorEq] at h
        · rcases hrest : lookAll switches ws with why | ls
          · simp only [hfirst, hrest, reduceCtorEq] at h
          · simp only [hfirst, hrest, Except.ok.injEq] at h
            rw [← h] at hhit
            rcases List.mem_cons.mp hhit with heq | hmem
            · cases heq
              exact switch_of_look hfirst
            · exact ih hrest hmem

theorem switches_of_cluster {s : Switch} {cs : List Char} {others : List Switch} {last : Hit}
    (hs : s ∈ switches) (htakes : s.takes.isSome = false)
    (h : cluster switches s cs = .ok (others, last)) :
    (∀ t ∈ others, t ∈ switches ∧ t.takes.isSome = false) ∧ last.switch ∈ switches := by
  induction cs generalizing s others with
  | nil => cases h
  | cons c cs ih =>
      rw [cluster] at h
      -- All but the last letter stand for switches that take nothing.
      have hsingle : ∀ t ∈ [s], t ∈ switches ∧ t.takes.isSome = false := by
        intro t ht
        rw [List.mem_singleton.mp ht]
        exact ⟨hs, htakes⟩
      rcases hlookup : (namesOf switches).lookup (String.ofList ['-', c]) with _ | t
      · simp only [hlookup, reduceCtorEq] at h
      · simp only [hlookup] at h
        have ht := switch_of_lookup hlookup
        by_cases hlast : cs.isEmpty = true
        · rw [if_pos hlast] at h
          cases h
          exact ⟨hsingle, ht⟩
        · rw [if_neg hlast] at h
          by_cases htakes' : t.takes.isSome = true
          · rw [if_pos htakes'] at h
            cases h
            exact ⟨hsingle, ht⟩
          · rw [if_neg htakes'] at h
            rcases hrest : cluster switches t cs with why | ⟨others', last'⟩
            · rw [hrest] at h
              cases h
            · rw [hrest] at h
              cases h
              rcases ih ht (Bool.not_eq_true _ ▸ htakes') hrest with ⟨hothers, hlast'⟩
              refine ⟨fun u hu => ?_, hlast'⟩
              rcases List.mem_cons.mp hu with rfl | hu
              · exact ⟨hs, htakes⟩
              · exact hothers u hu

/-- The switches that a word stands for are among those that are looked for, and
    all but the last of them take nothing. -/
theorem switches_of_expand {hit last : Hit} {others : List Switch} (hhit : hit.switch ∈ switches)
    (h : expand switches hit = .ok (others, last)) :
    (∀ t ∈ others, t ∈ switches ∧ t.takes.isSome = false) ∧ last.switch ∈ switches := by
  have hnone : ∀ t ∈ ([] : List Switch), t ∈ switches ∧ t.takes.isSome = false :=
    fun t ht => absurd ht List.not_mem_nil
  rw [expand] at h
  rcases hvalue : hit.value with _ | value
  · simp only [hvalue] at h
    cases h
    exact ⟨hnone, hhit⟩
  · simp only [hvalue] at h
    by_cases htakes : hit.switch.takes.isSome = true
    · rw [if_pos htakes] at h
      cases h
      exact ⟨hnone, hhit⟩
    · rw [if_neg htakes] at h
      split at h
      · cases h
      · exact switches_of_cluster hhit (Bool.not_eq_true _ ▸ htakes) h

theorem Reading.Fits.push {r : Reading} (h : r.Fits switches) {g : Given}
    (hg : Given.Fits switches g) : (r.push g).Fits switches := by
  intro g' hg'
  rcases List.mem_cons.mp hg' with rfl | hg'
  · exact hg
  · exact h g' hg'

theorem Reading.Fits.pushAll {r : Reading} (h : r.Fits switches) {others : List Switch}
    (hothers : ∀ t ∈ others, t ∈ switches ∧ t.takes.isSome = false) :
    (r.pushAll others).Fits switches := by
  intro g hg
  rcases List.mem_append.mp hg with hg | hg
  · rcases List.mem_map.mp hg with ⟨t, ht, rfl⟩
    exact fits_of_bare (hothers t ht).1 (hothers t ht).2
  · exact h g hg

/-- A word that stands for switches is read with what follows it. The last of
    the switches takes nothing, or has its argument in the word, or waits for
    it. -/
theorem fits_of_switch {looks : List (String × Look)} {w : String} {hit : Hit} {r : Reading}
    (hhit : hit.switch ∈ switches)
    (hrest : ∀ open_ : Option Switch, (∀ s ∈ open_, s ∈ switches ∧ s.takes.isSome = true) →
      ∀ r', readFrom switches open_ looks = .ok r' → r'.Fits switches)
    (h : readFrom switches none ((w, .switch hit) :: looks) = .ok r) : r.Fits switches := by
  have hnone := hrest none (fun s hs => absurd hs (Option.not_mem_none s))
  rw [readFrom] at h
  rcases hexpand : expand switches hit with why | ⟨others, last⟩
  · simp only [hexpand, reduceCtorEq] at h
  rcases switches_of_expand hhit hexpand with ⟨hothers, hlast⟩
  simp only [hexpand] at h
  by_cases hhelp : (others ++ [last.switch]).contains helpSwitch = true
  · -- Help ends the reading.
    rw [if_pos hhelp] at h
    cases h
    exact fun g hg => absurd hg List.not_mem_nil
  rw [if_neg hhelp] at h
  cases htakes : last.switch.takes.isSome with
  | false =>
      rw [htakes, Bool.not_false, if_pos rfl] at h
      rcases map_eq_ok_iff.mp h with ⟨r₁, hread, rfl⟩
      refine (hnone r₁ hread).pushAll fun t ht => ?_
      rcases List.mem_append.mp ht with ht | ht
      · exact hothers t ht
      · rw [List.mem_singleton.mp ht]
        exact ⟨hlast, htakes⟩
  | true =>
      rw [htakes, Bool.not_true, if_neg Bool.false_ne_true] at h
      rcases hvalue : last.value with _ | value
      · simp only [hvalue] at h
        rcases map_eq_ok_iff.mp h with ⟨r₁, hread, rfl⟩
        -- The next word is for the switch to take.
        have hwaits : ∀ s ∈ some last.switch, s ∈ switches ∧ s.takes.isSome = true :=
          fun s hs => Option.mem_some.mp hs ▸ ⟨hlast, htakes⟩
        exact (hrest _ hwaits r₁ hread).pushAll hothers
      · simp only [hvalue] at h
        rcases haccept : accept last.switch value with why | g
        · simp only [haccept, reduceCtorEq] at h
        · simp only [haccept] at h
          rcases map_eq_ok_iff.mp h with ⟨r₁, hread, rfl⟩
          exact ((hnone r₁ hread).push (fits_of_accept hlast htakes haccept)).pushAll hothers

/-- What is read fits, whichever switch waits for its argument. -/
theorem fits_of_readFrom {open_ : Option Switch} {looks : List (String × Look)} {r : Reading}
    (hopen : ∀ s ∈ open_, s ∈ switches ∧ s.takes.isSome = true)
    (hlooks : ∀ w hit, (w, .switch hit) ∈ looks → hit.switch ∈ switches)
    (h : readFrom switches open_ looks = .ok r) : r.Fits switches := by
  induction looks generalizing open_ r with
  | nil =>
      cases open_ with
      | none =>
          cases h
          exact fun g hg => absurd hg List.not_mem_nil
      | some s => cases h
  | cons wl looks ih =>
      rcases wl with ⟨w, l⟩
      have hrest : ∀ open_ : Option Switch, (∀ s ∈ open_, s ∈ switches ∧ s.takes.isSome = true) →
          ∀ r', readFrom switches open_ looks = .ok r' → r'.Fits switches :=
        fun open_ hopen r' hr' =>
          ih hopen (fun w hit hmem => hlooks w hit (List.mem_cons_of_mem _ hmem)) hr'
      have hnone := hrest none (fun s hs => absurd hs (Option.not_mem_none s))
      -- A word that is left over is no part of what is given.
      have hleft : ∀ {r'}, (readFrom switches none looks).map (·.leave w) = .ok r' →
          r'.Fits switches := by
        intro r' hr'
        rcases map_eq_ok_iff.mp hr' with ⟨r₁, hread, rfl⟩
        exact hnone r₁ hread
      cases open_ with
      | some s =>
          rcases hopen s rfl with ⟨hs, htakes⟩
          rw [readFrom.eq_def] at h
          cases l with
          | word =>
              simp only at h
              rcases haccept : accept s w with why | g
              · simp only [haccept, reduceCtorEq] at h
              · simp only [haccept] at h
                rcases map_eq_ok_iff.mp h with ⟨r₁, hread, rfl⟩
                exact (hnone r₁ hread).push (fits_of_accept hs htakes haccept)
          | _ => cases h
      | none =>
          cases l with
          | switch hit => exact fits_of_switch (hlooks w hit List.mem_cons_self) hrest h
          | unknown => exact hleft h
          | word => exact hleft h
          | divider => exact hleft h

theorem fits_of_readSwitches {words : List String} {r : Reading}
    (h : readSwitches switches words = .ok r) : r.Fits switches := by
  rw [readSwitches] at h
  rcases hlooks : lookAll switches words with why | looks
  · rw [hlooks] at h
    cases h
  · rw [hlooks] at h
    exact fits_of_readFrom (fun s hs => absurd hs (Option.not_mem_none s))
      (fun w hit hmem => switch_of_lookAll hlooks hmem) h

end Reading

theorem of_refuseLeft {asked asked' : Asked} {left : List String}
    (h : refuseLeft asked left = .ok asked') : asked' = asked := by
  cases left with
  | nil => exact (Except.ok.inj h).symm
  | cons w ws => cases h

theorem fits_of_readVerb {left words : List String} {name : String} {verb : Verb}
    {given : List Given} (h : readVerb left name words = .ok (.verb verb given)) :
    verb ∈ verbs ∧ ∀ g ∈ given, Given.Fits verb.switches g := by
  rw [readVerb] at h
  rcases hverb : verbs.find? (·.name == name) with _ | v
  · simp only [hverb, reduceCtorEq] at h
  · rcases hread : readSwitches v.switches words with why | r
    · simp only [hverb, hread, reduceCtorEq] at h
    · simp only [hverb, hread] at h
      by_cases hhelp : r.help = true
      · rw [if_pos hhelp] at h
        cases h
      · rw [if_neg hhelp] at h
        cases of_refuseLeft h
        exact ⟨List.mem_of_find?_eq_some hverb, fits_of_readSwitches hread⟩

theorem fits_of_readTop {left : List String} {looks : List (String × Look)} {verb : Verb}
    {given : List Given} (h : readTop left looks = .ok (.verb verb given)) :
    verb ∈ verbs ∧ ∀ g ∈ given, Given.Fits verb.switches g := by
  induction looks generalizing left with
  | nil => cases of_refuseLeft h
  | cons wl looks ih =>
      rcases wl with ⟨w, l⟩
      unfold readTop at h
      cases l with
      | switch hit =>
          simp only at h
          rcases hexpand : expand topSwitches hit with why | ⟨others, last⟩
          · simp only [hexpand, reduceCtorEq] at h
          · simp only [hexpand, Except.ok.injEq] at h
            split at h <;> cases h
      | unknown => exact ih h
      | word => exact fits_of_readVerb h
      | divider =>
          simp only at h
          split at h
          · exact ih h
          · exact fits_of_readVerb h

/-- What a command line gives are switches of its command, with arguments that
    they may have. -/
theorem fits_of_readLine {words : List String} {verb : Verb} {given : List Given}
    (h : readLine words = .ok (.verb verb given)) :
    verb ∈ verbs ∧ ∀ g ∈ given, Given.Fits verb.switches g := by
  rw [readLine] at h
  rcases hlooks : lookAll topSwitches words with why | looks
  · simp only [hlooks, reduceCtorEq] at h
  · simp only [hlooks] at h
    exact fits_of_readTop h

end Command

end Stencil
