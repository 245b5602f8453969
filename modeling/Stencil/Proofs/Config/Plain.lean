import Stencil.Config.Save

/-!
# Plain Data

The data that is saved as it is.

Saving turns a value into what every document format can hold. It gives up
what it cannot write: a day and a moment become texts, a number that is not
finite becomes nothing, and every key becomes a text, so that two keys can
fall together. A value in which there is none of this is plain. Saving always
ends at a plain value, and a plain value is saved as itself, so plain values
are exactly those that saving loses nothing of.

The entries of a map are written one by one to those that were written before,
and the invariant of the loop is that these have different texts as keys.

## Main definitions

* `Datum.Plain`: The value is one that every format can hold.
* `Datum.EntriesPlain`: So are some entries.
* `Datum.Encodes`: All bytes in the value are those of texts.

## Theorems

* `Datum.saved_of_plain`: A plain value is saved as it is.
* `Datum.plain_of_saved`: What is saved is plain.
* `Datum.saved_eq_self_iff`: A value is saved as it is iff it is plain.
* `Datum.exists_saved_iff`: A value can be saved iff its bytes are texts.
-/

namespace Stencil

namespace Datum

mutual
/-- The value is one that every document format can hold: nothing, a truth
value, a finite number or a text, or a list or a map of such values; the keys
of a map are different texts. -/
def Plain : Datum → Prop
  | .float x => x.isFinite = true
  | .bytes _ => False
  | .day _ => False
  | .moment _ => False
  | .list xs => ItemsPlain xs
  | .map es => (es.map Prod.fst).Nodup ∧ EntriesPlain es
  | _ => True

/-- The items of a list are plain. -/
def ItemsPlain : List Datum → Prop
  | [] => True
  | x :: xs => x.Plain ∧ ItemsPlain xs

/-- The keys of some entries are texts, and the values are plain. -/
def EntriesPlain : List (Datum × Datum) → Prop
  | [] => True
  | (k, v) :: es => (∃ s, k = .text s) ∧ v.Plain ∧ EntriesPlain es
end

/-- A text equals nothing but itself. -/
theorem same_text_iff {k : Datum} {s : String} : same k (.text s) = true ↔ k = .text s := by
  cases k with
  | text t => rw [same, beq_iff_eq, text.injEq]
  | _ => simp only [same, Bool.false_eq_true, reduceCtorEq]

/-- A new key comes last. -/
theorem Entries.insert_of_not_mem {es : Entries} {s : String} (h : .text s ∉ es.map Prod.fst)
    (v : Datum) : Entries.insert (.text s) v es = es ++ [(.text s, v)] := by
  induction es with
  | nil => rfl
  | cons e es ih =>
      rw [List.map_cons, List.mem_cons, not_or] at h
      rw [Entries.insert, if_neg (fun heq => h.1 (same_text_iff.mp heq).symm), ih h.2,
        List.cons_append]

/-- Writing an entry adds its key, unless it is there. -/
theorem Entries.keys_insert (es : Entries) (s : String) (v : Datum) :
    (Entries.insert (.text s) v es).map Prod.fst = es.map Prod.fst ∨
      .text s ∉ es.map Prod.fst ∧
        (Entries.insert (.text s) v es).map Prod.fst = es.map Prod.fst ++ [.text s] := by
  induction es with
  | nil => exact Or.inr ⟨List.not_mem_nil, rfl⟩
  | cons e es ih =>
      by_cases hkey : same e.1 (.text s) = true
      · rw [Entries.insert, if_pos hkey]
        exact Or.inl rfl
      · rw [Entries.insert, if_neg hkey]
        simp only [List.map_cons]
        rcases ih with heq | ⟨hnew, heq⟩
        · exact Or.inl (congrArg _ heq)
        · refine Or.inr ⟨?_, congrArg _ heq⟩
          rw [List.mem_cons, not_or]
          exact ⟨fun heq => hkey (same_text_iff.mpr heq.symm), hnew⟩

theorem EntriesPlain.insert {es : Entries} (h : EntriesPlain es) (s : String) {v : Datum}
    (hv : v.Plain) : EntriesPlain (Entries.insert (.text s) v es) := by
  induction es with
  | nil => exact ⟨⟨s, rfl⟩, hv, trivial⟩
  | cons e es ih =>
      rcases h with ⟨hkey, hvalue, hrest⟩
      rw [Entries.insert]
      by_cases hsame : same e.1 (.text s) = true
      · rw [if_pos hsame]
        exact ⟨hkey, hv, hrest⟩
      · rw [if_neg hsame]
        exact ⟨hkey, hvalue, ih hrest⟩

mutual
/-- A plain value is saved as it is. -/
theorem saved_of_plain : ∀ d : Datum, d.Plain → saved d = .ok d
  | .null, _ => rfl
  | .bool _, _ => rfl
  | .int _, _ => rfl
  | .text _, _ => rfl
  | .float x, h => by
      rw [Plain] at h
      rw [saved, if_pos h]
  | .bytes _, h => by simp only [Plain] at h
  | .day _, h => by simp only [Plain] at h
  | .moment _, h => by simp only [Plain] at h
  | .list xs, h => by
      rw [Plain] at h
      rw [saved, savedList_of_plain xs h]
      rfl
  | .map es, h => by
      rw [Plain] at h
      rw [saved, savedEntries_of_plain es [] h.1 h.2]
      rfl

/-- Plain items are saved as they are. -/
theorem savedList_of_plain : ∀ xs : List Datum, ItemsPlain xs → savedList xs = .ok xs
  | [], _ => rfl
  | x :: xs, h => by
      rw [ItemsPlain] at h
      simp only [savedList, saved_of_plain x h.1, savedList_of_plain xs h.2]
      rfl

/-- Plain entries are added to those saved before, if their keys are new. -/
theorem savedEntries_of_plain : ∀ (es done : List (Datum × Datum)),
    ((done ++ es).map Prod.fst).Nodup → EntriesPlain es → savedEntries done es = .ok (done ++ es)
  | [], done, _, _ => by rw [savedEntries, List.append_nil]
  | (k, v) :: es, done, hdistinct, h => by
      rw [EntriesPlain] at h
      rcases h with ⟨⟨s, rfl⟩, hv, hes⟩
      have hnew : .text s ∉ done.map Prod.fst := by
        rw [List.map_append, List.map_cons] at hdistinct
        exact fun hmem => (List.nodup_append.mp hdistinct).2.2 _ hmem _ List.mem_cons_self rfl
      have hmove : done ++ (.text s, v) :: es = (done ++ [(.text s, v)]) ++ es := by
        rw [List.append_assoc, List.singleton_append]
      simp only [savedEntries, savedKey, saved_of_plain v hv]
      rw [Entries.insert_of_not_mem hnew, hmove]
      exact savedEntries_of_plain es _ (hmove ▸ hdistinct) hes
end

mutual
/-- What is saved is plain. -/
theorem plain_of_saved : ∀ d d' : Datum, saved d = .ok d' → d'.Plain
  | .null, d', h => by cases h; simp only [Plain]
  | .bool _, d', h => by cases h; simp only [Plain]
  | .int _, d', h => by cases h; simp only [Plain]
  | .text _, d', h => by cases h; simp only [Plain]
  | .float x, d', h => by
      rw [saved, Except.ok.injEq] at h
      by_cases hfinite : x.isFinite = true
      · rw [if_pos hfinite] at h
        rw [← h, Plain]
        exact hfinite
      · rw [if_neg hfinite] at h
        rw [← h]
        simp only [Plain]
  | .bytes bs, d', h => by
      rw [saved] at h
      rcases hbytes : savedBytes bs with why | s
      · rw [hbytes] at h
        cases h
      · rw [hbytes] at h
        cases h
        simp only [Plain]
  | .day d, d', h => by cases h; simp only [Plain]
  | .moment t, d', h => by cases h; simp only [Plain]
  | .list xs, d', h => by
      rw [saved] at h
      rcases hitems : savedList xs with why | ys
      · rw [hitems] at h
        cases h
      · rw [hitems] at h
        cases h
        rw [Plain]
        exact itemsPlain_of_saved xs ys hitems
  | .map es, d', h => by
      rw [saved] at h
      rcases hentries : savedEntries [] es with why | fs
      · rw [hentries] at h
        cases h
      · rw [hentries] at h
        cases h
        rw [Plain]
        exact entriesPlain_of_saved es [] fs hentries List.nodup_nil (by rw [EntriesPlain]; trivial)

/-- The items that are saved are plain. -/
theorem itemsPlain_of_saved : ∀ xs ys : List Datum, savedList xs = .ok ys → ItemsPlain ys
  | [], ys, h => by cases h; rw [ItemsPlain]; trivial
  | x :: xs, ys, h => by
      rw [savedList] at h
      rcases hx : saved x with why | y
      · simp only [hx, reduceCtorEq] at h
      · rcases hxs : savedList xs with why | rest
        · simp only [hx, hxs] at h
          cases h
        · simp only [hx, hxs] at h
          cases h
          rw [ItemsPlain]
          exact ⟨plain_of_saved x y hx, itemsPlain_of_saved xs rest hxs⟩

/-- The entries that are saved are plain and have different keys, if those
    saved before were. -/
theorem entriesPlain_of_saved : ∀ es done fs : List (Datum × Datum),
    savedEntries done es = .ok fs → (done.map Prod.fst).Nodup → EntriesPlain done →
      (fs.map Prod.fst).Nodup ∧ EntriesPlain fs
  | [], done, fs, h, hdistinct, hdone => by
      rw [savedEntries, Except.ok.injEq] at h
      exact h ▸ ⟨hdistinct, hdone⟩
  | (k, v) :: es, done, fs, h, hdistinct, hdone => by
      rw [savedEntries] at h
      rcases hk : savedKey k with why | s
      · simp only [hk, reduceCtorEq] at h
      · rcases hv : saved v with why | value
        · simp only [hk, hv, reduceCtorEq] at h
        · simp only [hk, hv] at h
          refine entriesPlain_of_saved es _ fs h ?_
            (hdone.insert s (plain_of_saved v value hv))
          -- A key that is there keeps its place, and a new one comes last.
          rcases Entries.keys_insert done s value with heq | ⟨hnew, heq⟩
          · rw [heq]
            exact hdistinct
          · rw [heq, List.nodup_append]
            refine ⟨hdistinct, List.nodup_cons.mpr ⟨List.not_mem_nil, List.nodup_nil⟩,
              fun a ha b hb heq => hnew ?_⟩
            rw [← List.mem_singleton.mp hb, ← heq]
            exact ha
end

/-- Saving loses nothing of a value iff the value is plain. -/
theorem saved_eq_self_iff {d : Datum} : saved d = .ok d ↔ d.Plain :=
  ⟨plain_of_saved d d, saved_of_plain d⟩

/-- The bytes are those of a text. -/
def IsEncoding (bs : List UInt8) : Prop :=
  ∃ s, savedBytes bs = .ok s

mutual
/-- All bytes in the value are those of texts. -/
def Encodes : Datum → Prop
  | .bytes bs => IsEncoding bs
  | .list xs => ItemsEncode xs
  | .map es => EntriesEncode es
  | _ => True

/-- All bytes in the items of a list are those of texts. -/
def ItemsEncode : List Datum → Prop
  | [] => True
  | x :: xs => x.Encodes ∧ ItemsEncode xs

/-- All bytes in the keys and values of some entries are those of texts. -/
def EntriesEncode : List (Datum × Datum) → Prop
  | [] => True
  | (k, v) :: es => (∀ bs, k = .bytes bs → IsEncoding bs) ∧ v.Encodes ∧ EntriesEncode es
end

theorem exists_savedKey_iff (k : Datum) :
    (∃ s, savedKey k = .ok s) ↔ ∀ bs, k = .bytes bs → IsEncoding bs := by
  cases k with
  | bytes bs =>
      refine ⟨fun h cs heq => ?_, fun h => h bs rfl⟩
      cases heq
      exact h
  | _ => exact ⟨fun _ bs heq => (nomatch heq), fun _ => ⟨_, rfl⟩⟩

mutual
/-- A value can be saved iff the bytes in it are those of texts. -/
theorem exists_saved_iff : ∀ d : Datum, (∃ d', saved d = .ok d') ↔ d.Encodes
  | .null => by simp only [Encodes, iff_true]; exact ⟨_, rfl⟩
  | .bool _ => by simp only [Encodes, iff_true]; exact ⟨_, rfl⟩
  | .int _ => by simp only [Encodes, iff_true]; exact ⟨_, rfl⟩
  | .text _ => by simp only [Encodes, iff_true]; exact ⟨_, rfl⟩
  | .float _ => by simp only [Encodes, iff_true]; exact ⟨_, rfl⟩
  | .day _ => by simp only [Encodes, iff_true]; exact ⟨_, rfl⟩
  | .moment _ => by simp only [Encodes, iff_true]; exact ⟨_, rfl⟩
  | .bytes bs => by
      rw [Encodes, saved, IsEncoding]
      rcases savedBytes bs with why | s
      · exact ⟨fun ⟨_, h⟩ => (nomatch h), fun ⟨_, h⟩ => (nomatch h)⟩
      · exact ⟨fun _ => ⟨s, rfl⟩, fun _ => ⟨.text s, rfl⟩⟩
  | .list xs => by
      rw [Encodes, saved, ← exists_savedList_iff xs]
      rcases savedList xs with why | ys
      · exact ⟨fun ⟨_, h⟩ => (nomatch h), fun ⟨_, h⟩ => (nomatch h)⟩
      · exact ⟨fun _ => ⟨ys, rfl⟩, fun _ => ⟨.list ys, rfl⟩⟩
  | .map es => by
      rw [Encodes, saved, ← exists_savedEntries_iff es []]
      rcases savedEntries [] es with why | fs
      · exact ⟨fun ⟨_, h⟩ => (nomatch h), fun ⟨_, h⟩ => (nomatch h)⟩
      · exact ⟨fun _ => ⟨fs, rfl⟩, fun _ => ⟨.map fs, rfl⟩⟩

theorem exists_savedList_iff :
    ∀ xs : List Datum, (∃ ys, savedList xs = .ok ys) ↔ ItemsEncode xs
  | [] => by simp only [ItemsEncode, iff_true]; exact ⟨_, rfl⟩
  | x :: xs => by
      rw [ItemsEncode, savedList, ← exists_saved_iff x, ← exists_savedList_iff xs]
      rcases saved x with why | y
      · exact ⟨fun ⟨_, h⟩ => (nomatch h), fun ⟨⟨_, h⟩, _⟩ => (nomatch h)⟩
      · rcases savedList xs with why | ys
        · exact ⟨fun ⟨_, h⟩ => (nomatch h), fun ⟨_, _, h⟩ => (nomatch h)⟩
        · exact ⟨fun _ => ⟨⟨y, rfl⟩, ys, rfl⟩, fun _ => ⟨y :: ys, rfl⟩⟩

theorem exists_savedEntries_iff : ∀ es done : List (Datum × Datum),
    (∃ fs, savedEntries done es = .ok fs) ↔ EntriesEncode es
  | [], done => by simp only [EntriesEncode, iff_true]; exact ⟨_, rfl⟩
  | (k, v) :: es, done => by
      rw [EntriesEncode, savedEntries, ← exists_savedKey_iff k, ← exists_saved_iff v]
      rcases savedKey k with why | s
      · exact ⟨fun ⟨_, h⟩ => (nomatch h), fun ⟨⟨_, h⟩, _⟩ => (nomatch h)⟩
      · rcases saved v with why | value
        · exact ⟨fun ⟨_, h⟩ => (nomatch h), fun ⟨_, ⟨_, h⟩, _⟩ => (nomatch h)⟩
        · simp only [exists_savedEntries_iff es, Except.ok.injEq, exists_eq', true_and]
end

end Datum

end Stencil
