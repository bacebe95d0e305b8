import DesktopShell.Desktop.State
import Mathlib.Data.List.Forall2
import Mathlib.Data.List.Nodup

/-!
# Reading records back

A reader that goes through a record with names looks up each field and leaves the
record as it is, so that its fields can be read in any order. What the JSON format
writes for a value of a field, it reads back; a float only when it is finite. So a
snapshot reads back from its record exactly when all its coordinates are finite, and
otherwise does not read at all: one coordinate without a JSON form spoils the whole
record. In which order the fields stand does not matter, neither those of the snapshot
nor those of its windows and icons (`Snapshot.ofJson?_of_spelled`).
-/
namespace DesktopShell

/-- Fields with different names are found alike in every order. -/
theorem lookup_eq_of_perm {V : Type} {fs gs : List (String × V)} (same : gs.Perm fs) (apart : (fs.map (·.1)).Nodup)
    (name : String) : gs.lookup name = fs.lookup name := by
  induction same with
  | nil => rfl
  | cons field _ ih =>
    rw [List.map_cons, List.nodup_cons] at apart
    rw [List.lookup_cons, List.lookup_cons, ih apart.2]
  | swap first second rest =>
    have different : first.1 ≠ second.1 := by
      intro equal
      simp [equal] at apart
    rw [List.lookup_cons, List.lookup_cons, List.lookup_cons, List.lookup_cons]
    by_cases found : name = first.1
    · simp [found, beq_false_of_ne different]
    · simp [beq_false_of_ne found]
  | trans _ second ihFirst ihSecond =>
    rw [ihFirst ((second.map _).nodup_iff.mpr apart), ihSecond apart]

/-- Records with the same fields in another order. -/
def Json.Rearranged (record other : Json) : Prop :=
  ∃ fs gs, record = .object fs ∧ other = .object gs ∧ gs.Perm fs

theorem Json.Rearranged.exists_object {fs : List (String × Json)} {other : Json}
    (rearranged : (Json.object fs).Rearranged other) (apart : (fs.map (·.1)).Nodup) :
    ∃ gs, other = .object gs ∧ ∀ name, gs.lookup name = fs.lookup name := by
  obtain ⟨_, gs, ⟨rfl⟩, rfl, same⟩ := rearranged
  exact ⟨gs, rfl, lookup_eq_of_perm same apart⟩

theorem Json.Rearranged.refl (fs : List (String × Json)) : (Json.object fs).Rearranged (.object fs) :=
  ⟨fs, fs, rfl, rfl, .refl fs⟩

namespace Reader
variable {V α β : Type} {fs : List (String × V)}

private theorem bind_apply (r : Reader V α) (next : α → Reader V β) (fields : Fields V) :
    (r >>= next) fields = (r fields).bind fun read => next read.1 read.2 := rfl

theorem pure_apply (a : α) (fields : Fields V) : (pure a : Reader V α) fields = some (a, fields) := rfl

-- The laws branch on what is read by `match`, so that simp reads one field after the other and
-- does not go into what comes after a field before it has been read.

theorem required_bind (name : String) (read : V → Option α) (next : α → Reader V β) :
    (required name read >>= next) (.named fs) =
      match (fs.lookup name).bind read with
      | some a => next a (.named fs)
      | none => none := by
  rw [bind_apply, required, bind_apply]
  cases found : fs.lookup name with
  | none => simp [next?, found, failure, StateT.failure, Alternative.failure]
  | some v => cases value : read v <;> simp [next?, found, value, StateT.lift]

theorem withDefault_bind (name : String) (default : α) (read : V → Option α) (next : α → Reader V β) :
    (withDefault name default read >>= next) (.named fs) =
      match ((fs.lookup name).map read).getD (some default) with
      | some a => next a (.named fs)
      | none => none := by
  rw [bind_apply, withDefault, bind_apply]
  cases found : fs.lookup name with
  | none => simp [next?, found, pure_apply]
  | some v => cases value : read v <;> simp [next?, found, value, StateT.lift]

theorem nullable_bind [Format V] (name : String) (read : V → Option α) (next : Option α → Reader V β) :
    (nullable name read >>= next) (.named fs) =
      match ((fs.lookup name).map fun v => if Format.isNull v then some none else (read v).map some).getD
        (some none) with
      | some a => next a (.named fs)
      | none => none := by
  rw [bind_apply, nullable, bind_apply]
  cases found : fs.lookup name with
  | none => simp [next?, found, bind_apply, isNamed, pure_apply]
  | some v =>
    cases null : Format.isNull v <;> cases value : read v <;>
      simp [next?, found, null, value, StateT.lift, pure_apply]

end Reader

namespace Format

@[simp] theorem text?_text (s : String) : text? (Json.text s) = some s := rfl

@[simp] theorem flag?_flag (b : Bool) : flag? (Json.flag b) = some b := rfl

@[simp] theorem named?_text {α : Type} (ofName? : String → Option α) (s : String) :
    named? ofName? (Json.text s) = ofName? s := rfl

@[simp] theorem word?_ofWord (n : UInt64) : word? (Json.ofWord n) = some n := by
  have bound : n.toNat < Nat.pow 2 64 := n.toNat_lt
  simp [word?, below?, Json.ofWord, whole?, bound]

@[simp] theorem version?_whole (n : UInt32) : version? (Json.whole n.toNat) = some n := by
  have bound : n.toNat < Nat.pow 2 32 := n.toNat_lt
  simp [version?, below?, whole?, bound]

@[simp] theorem float?_ofFloat (x : Float) :
    float? (Json.ofFloat x) = if x.isFinite then some x else none := by
  cases finite : x.isFinite <;> simp [Json.ofFloat, float?, Json.float?, finite]

/-- A list is read when each of its values is read to what the value is written for. -/
theorem listOf?_of_forall₂ {α : Type} {spelled : α → Json → Prop} {read : Json → Option α} {p : α → Bool}
    (each : ∀ a value, spelled a value → read value = if p a then some a else none) {items : List α}
    {values : List Json} (all : List.Forall₂ spelled items values) :
    listOf? read (Json.list values) = if items.all p then some items else none := by
  change values.mapM read = _
  induction all with
  | nil => rfl
  | @cons first value rest values head _ ih =>
    rw [List.mapM_cons, ih, each first value head, List.all_cons]
    cases p first <;> cases rest.all p <;> rfl

/-- A list whose values all read back reads back. -/
theorem listOf?_map {α : Type} {write : α → Json} {read : Json → Option α} (each : ∀ a, read (write a) = some a)
    (items : List α) : listOf? read (Json.list (items.map write)) = some items := by
  have written : List.Forall₂ (fun a value => value = write a) items (items.map write) :=
    List.forall₂_map_right_iff.mpr (List.forall₂_same.mpr fun _ _ => rfl)
  have whole := listOf?_of_forall₂ (p := fun _ => true) (fun a _ same => same ▸ each a) written
  simpa using whole

end Format

/-- Every coordinate of a rectangle is a finite number. -/
def Rect.isFinite (r : Rect Float) : Bool := r.x.isFinite && r.y.isFinite && r.width.isFinite && r.height.isFinite

/-- Both coordinates of an icon are finite numbers. -/
def Icon.isFinite (icon : Icon Float) : Bool := icon.x.isFinite && icon.y.isFinite

/-- Every coordinate of a snapshot is a finite number. -/
def Snapshot.isFinite (s : Snapshot Float) : Bool := s.windows.all (·.rect.isFinite) && s.icons.all (·.isFinite)

/-- A window reads back from its record exactly when its place is finite. -/
theorem Window.ofJson?_of_rearranged (w : Window Float) (record : Json) (rearranged : w.toJson.Rearranged record) :
    Window.ofJson? record = if w.rect.isFinite then some w else none := by
  obtain ⟨id, title, app, kind, ⟨x, y, width, height⟩, status, z, openedAt, focused, data⟩ := w
  obtain ⟨fields, rfl, same⟩ := rearranged.exists_object (by simp)
  simp only [Window.ofJson?, Reader.namedRecord?, Format.fields?, Reader.run?, Window.reader,
    ↓Reader.required_bind, ↓Reader.withDefault_bind, Reader.pure_apply, same, List.lookup_cons, String.reduceBEq,
    Option.bind_some, Option.map_some, Option.getD_some, Format.text?_text, Format.named?_text,
    AppKind.ofName?_name, Status.ofName?_name, Format.float?_ofFloat, Format.word?_ofWord, Format.flag?_flag,
    Rect.isFinite]
  by_cases left : x.isFinite = true <;> by_cases upper : y.isFinite = true <;>
    by_cases wide : width.isFinite = true <;> by_cases high : height.isFinite = true <;>
    simp [left, upper, wide, high]

/-- An icon reads back from its record exactly when its place is finite. -/
theorem Icon.record?_of_rearranged (icon : Icon Float) (record : Json) (rearranged : icon.toJson.Rearranged record) :
    Icon.reader.record? record = if icon.isFinite then some icon else none := by
  obtain ⟨id, app, x, y, order⟩ := icon
  obtain ⟨fields, rfl, same⟩ := rearranged.exists_object (by simp)
  simp only [Reader.record?, Format.fields?, Option.bind_some, Reader.run?, Icon.reader,
    ↓Reader.required_bind, Reader.pure_apply, same, List.lookup_cons, String.reduceBEq, Format.text?_text,
    Format.float?_ofFloat, Format.word?_ofWord, Icon.isFinite]
  by_cases left : x.isFinite = true <;> by_cases upper : y.isFinite = true <;> simp [left, upper]

/-- What a snapshot is written as when its fields and those of its windows and icons may stand in any order. -/
def Snapshot.Spelled (s : Snapshot Float) (record : Json) : Prop :=
  ∃ windows icons, List.Forall₂ (fun w => w.toJson.Rearranged) s.windows windows ∧
    List.Forall₂ (fun icon => icon.toJson.Rearranged) s.icons icons ∧
    (Json.object [("schema_version", .whole s.schema.toNat), ("windows", .list windows),
      ("desktop_icons", .list icons), ("next_z_index", .ofWord s.nextZ),
      ("background", .ofText? s.background)]).Rearranged record

theorem Snapshot.spelled_toJson (s : Snapshot Float) : s.Spelled s.toJson :=
  ⟨s.windows.map Window.toJson, s.icons.map Icon.toJson,
    List.forall₂_map_right_iff.mpr (List.forall₂_same.mpr fun _ _ => .refl _),
    List.forall₂_map_right_iff.mpr (List.forall₂_same.mpr fun _ _ => .refl _), .refl _⟩

theorem Snapshot.ofJson?_of_spelled {s : Snapshot Float} {record : Json} (spelled : s.Spelled record) :
    Snapshot.ofJson? record = if s.isFinite then some s else none := by
  obtain ⟨schema, windows, icons, nextZ, background⟩ := s
  obtain ⟨windowRecords, iconRecords, placed, arranged, rearranged⟩ := spelled
  obtain ⟨fields, rfl, same⟩ := rearranged.exists_object (by simp)
  have text : (if Format.isNull (Json.ofText? background) then some none
      else (Format.text? (Json.ofText? background)).map some) = some background := by cases background <;> rfl
  simp only [Snapshot.ofJson?, Reader.record?, Format.fields?, Option.bind_some, Reader.run?,
    Snapshot.reader, ↓Reader.required_bind, ↓Reader.nullable_bind, Reader.pure_apply, same, List.lookup_cons,
    String.reduceBEq, Option.map_some, Option.getD_some, Format.version?_whole, Format.word?_ofWord,
    Format.listOf?_of_forall₂ Window.ofJson?_of_rearranged placed,
    Format.listOf?_of_forall₂ Icon.record?_of_rearranged arranged, text, Snapshot.isFinite]
  by_cases windowsFinite : windows.all (·.rect.isFinite) = true <;>
    by_cases iconsFinite : icons.all (·.isFinite) = true <;> simp [windowsFinite, iconsFinite]

/-- A snapshot reads back from its record exactly when all its coordinates are finite. -/
theorem Snapshot.ofJson?_toJson (s : Snapshot Float) :
    Snapshot.ofJson? s.toJson = if s.isFinite then some s else none :=
  ofJson?_of_spelled s.spelled_toJson

/-- A snapshot with finite coordinates is read back from its record as it was, whatever its counters and the data of
    its windows are, and also when the fields stand in another order. -/
theorem Snapshot.read_back {s : Snapshot Float} (finite : s.isFinite = true) :
    Snapshot.ofJson? s.toJson = some s ∧ ∀ record, s.Spelled record → Snapshot.ofJson? record = some s := by
  refine ⟨?_, ?_⟩
  · rw [ofJson?_toJson, if_pos finite]
  · intro record spelled
    rw [ofJson?_of_spelled spelled, if_pos finite]

/-- A window carries data with a name of its own place and with null in it, the counters are as large as they can
    be, and all fields stand in the opposite order. -/
theorem Snapshot.read_back_reversed :
    let data : Json := .object [("x", .null), ("data", .list [.whole (-1), .object [], .null])]
    let s : Snapshot Float :=
      { schema := 0, icons := [⟨"icon-1", "app-9", 16, 4.5, 0⟩], nextZ := 18446744073709551615, background := none,
        windows := [⟨"win-1", "", "app-9", .custom, ⟨-0.0, 8, 1e300, 4⟩, .closed, 18446744073709551615, 0, true, data⟩] }
    let window : Json := .object [("data", data), ("focused", .flag true), ("start_time_unix_ms", .whole 0),
      ("z_index", .whole 18446744073709551615), ("status", .text "closed"), ("height", .ofFloat 4),
      ("width", .ofFloat 1e300), ("y", .ofFloat 8), ("x", .ofFloat (-0.0)), ("app_type", .text "custom"),
      ("app_id", .text "app-9"), ("title", .text ""), ("id", .text "win-1")]
    let icon : Json := .object [("order", .whole 0), ("y", .ofFloat 4.5), ("x", .ofFloat 16),
      ("app_id", .text "app-9"), ("id", .text "icon-1")]
    Snapshot.ofJson? s.toJson = some s ∧
      Snapshot.ofJson? (.object [("background", .null), ("next_z_index", .whole 18446744073709551615),
        ("desktop_icons", .list [icon]), ("windows", .list [window]), ("schema_version", .whole 0)]) = some s := by
  intro data s window icon
  obtain ⟨whole, spelled⟩ := Snapshot.read_back (s := s) (by decide +kernel)
  refine ⟨whole, spelled _ ⟨[window], [icon], ?_, ?_, _, _, rfl, rfl, List.reverse_perm'.mp (.of_eq rfl)⟩⟩
  · exact .cons ⟨_, _, rfl, rfl, List.reverse_perm'.mp (.of_eq rfl)⟩ .nil
  · exact .cons ⟨_, _, rfl, rfl, List.reverse_perm'.mp (.of_eq rfl)⟩ .nil

end DesktopShell
