import Stencil.Config.Basic

/-!
# Saving Configurations

The fields that are written down when a configuration is saved.

Only fields that differ from their defaults are saved, in the order of the
fields. A saved value consists of what every document format can hold: days,
moments and bytes become texts, numbers that are not finite become nothing,
and every key becomes a text.

## Main definitions

* `Datum.saved`: A value as it is saved.
* `Config.saved`: The fields that are saved.
* `Config.same`: Two configurations agree in every field.

## Theorems

* `Config.saved_default`: Nothing of the default configuration is saved.
-/

namespace Stencil

/-- The text of the distance of a clock from universal time. -/
def savedOffset (seconds : Int) : String :=
  if seconds == 0 then "Z"
  else
    let minutes := seconds.natAbs / 60
    (if seconds < 0 then "-" else "+") ++ Layout.padZeros 2 (minutes / 60) ++ ":" ++
      Layout.padZeros 2 (minutes % 60)

/-- The text of a moment as it is saved. -/
def savedMoment (t : Moment) : String :=
  Moment.text { t with offset := none } "T" ++ (t.offset.map savedOffset).getD ""

/-- The text that bytes encode. -/
def savedBytes (bs : List UInt8) : Except Text.Utf8.Fault String :=
  Text.Utf8.decode ⟨bs.toArray⟩

/-- The key of an entry as it is saved. -/
def savedKey : Datum → Except Text.Utf8.Fault String
  | .null => .ok "None"
  | .bool b => .ok (if b then "true" else "false")
  | .int n => .ok (toString n)
  | .float x => .ok x.text
  | .text s => .ok s
  | .bytes bs => savedBytes bs
  | .day d => .ok d.text
  | .moment t => .ok (savedMoment t)
  | _ => .ok ""

namespace Datum

mutual
/-- A value as it is saved. -/
def saved : Datum → Except Text.Utf8.Fault Datum
  | .float x => .ok (if x.isFinite then .float x else .null)
  | .bytes bs => (savedBytes bs).map .text
  | .day d => .ok (.text d.text)
  | .moment t => .ok (.text (savedMoment t))
  | .list xs => (savedList xs).map .list
  | .map es => (savedEntries [] es).map .map
  | d => .ok d

/-- The items of a list as they are saved. -/
def savedList : List Datum → Except Text.Utf8.Fault (List Datum)
  | [] => .ok []
  | x :: xs =>
    match saved x with
    | .error why => .error why
    | .ok y => (savedList xs).map (y :: ·)

/-- The entries of a map as they are saved, written to those saved before. -/
def savedEntries (done : List (Datum × Datum)) :
    List (Datum × Datum) → Except Text.Utf8.Fault (List (Datum × Datum))
  | [] => .ok done
  | (k, v) :: es =>
    match savedKey k, saved v with
    | .ok key, .ok value => savedEntries (Entries.insert (.text key) value done) es
    | .error why, _ => .error why
    | _, .error why => .error why
end

end Datum

namespace Config

/-- The fields that differ from their defaults. -/
def ownFields (c : Config) : Fields :=
  ((c.fields.zip default.fields).filter fun p => !Datum.same p.1.2 p.2.2).map Prod.fst

/-- The fields that are saved. -/
def saved (c : Config) : Except Text.Utf8.Fault Fields :=
  c.ownFields.mapM fun f => (Datum.saved f.2).map fun d => (f.1, d)

/-- Two configurations agree in every field. -/
def same (a b : Config) : Bool :=
  (a.fields.zip b.fields).all fun p => Datum.same p.1.2 p.2.2

theorem saved_default : default.saved = .ok [] := by
  have : default.ownFields = [] := by decide
  simp [saved, this]
  rfl

end Config

end Stencil
