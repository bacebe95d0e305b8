import DesktopShell.Proofs.Desktop.Following

/-!
# Which configurations are accepted

A configuration is accepted if nothing speaks against it (`Config.fault?_eq_none_iff`). Then it has
the version that is supported, and applications with ids of their own. Its sizes are checked by
comparisons that speak against them, and no comparison speaks against what is not a number: so they
are in order exactly as far as they are numbers (`Config.sizes_of_ofToml`). Two floats compare as
less, equal or greater, or not at all if one of them is not a number (`order?`), and a comparison
that does not hold says no more than that the opposite one holds or that there is nothing to compare
(`not_le_iff`, `not_lt_iff`). No window can be stretched below a least size that is positive.
-/
namespace DesktopShell.Binary64
open Float.Model (UnpackedFloat)
open Float.Model.UnpackedFloat (Sign)

private theorem compare_sign_swap (s t : Sign) : (compare s t).swap = compare t s := by
  cases s <;> cases t <;> rfl

theorem compare_swap (u v : UnpackedFloat) : (u.compare v).map Ordering.swap = v.compare u := by
  cases u with
  | notANumber => cases v <;> rfl
  | infinity s =>
    cases v with
    | infinity t => exact congrArg some (compare_sign_swap s t)
    | _ => cases s <;> rfl
  | zero s =>
    cases v with
    | infinity t => cases t <;> rfl
    | finite t => cases t <;> rfl
    | _ => rfl
  | finite s m e =>
    cases v with
    | infinity t => cases t <;> rfl
    | finite t m' e' =>
      have magnitudes : ((compare e e').then (compare m m')).swap = (compare e' e).then (compare m' m) := by
        rw [Ordering.swap_then, Int.compare_swap, Nat.compare_swap]
      cases s with
      | negative =>
        cases t with
        | negative => exact congrArg (fun o => some o.swap) magnitudes
        | positive => rfl
      | positive =>
        cases t with
        | negative => rfl
        | positive => exact congrArg some magnitudes
    | _ => cases s <;> rfl

theorem compare_eq_none_iff {u v : UnpackedFloat} : u.compare v = none ↔ u.isNaN = true ∨ v.isNaN = true := by
  have none (v : UnpackedFloat) : UnpackedFloat.compare .notANumber v = none := by cases v <;> rfl
  constructor
  · intro incomparable
    cases u with
    | notANumber => exact .inl rfl
    | infinity s =>
      cases v with
      | notANumber => exact .inr rfl
      | _ => cases s <;> cases incomparable
    | zero s =>
      cases v with
      | notANumber => exact .inr rfl
      | infinity t => cases t <;> cases incomparable
      | finite t => cases t <;> cases incomparable
      | _ => cases incomparable
    | finite s =>
      cases v with
      | notANumber => exact .inr rfl
      | infinity t => cases t <;> cases incomparable
      | finite t => cases s <;> cases t <;> cases incomparable
      | _ => cases s <;> cases incomparable
  · rintro (nan | nan)
    · cases u with
      | notANumber => exact none v
      | _ => cases nan
    · cases v with
      | notANumber => rw [← compare_swap, none, Option.map_none]
      | _ => cases nan

/-- How two floats compare. -/
def order? (a b : Float) : Option Ordering := a.toModel.unpack.compare b.toModel.unpack

variable {a b : Float}

theorem order?_swap (a b : Float) : (order? a b).map Ordering.swap = order? b a := compare_swap _ _

theorem order?_eq_none_iff : order? a b = none ↔ a.isNaN = true ∨ b.isNaN = true := compare_eq_none_iff

theorem lt_iff : a < b ↔ order? a b = some .lt := by
  show (decide (a.toModel < b.toModel) : Bool) = true ↔ _
  rw [decide_eq_true_iff]
  show (order? a b == some .lt) = true ↔ _
  exact beq_iff_eq

theorem le_iff : a ≤ b ↔ ∃ o, order? a b = some o ∧ o.isLE = true := by
  show (decide (a.toModel ≤ b.toModel) : Bool) = true ↔ _
  rw [decide_eq_true_iff]
  show (order? a b).any (·.isLE) = true ↔ _
  exact Option.any_eq_true _ _

theorem not_lt_iff : ¬ a < b ↔ a.isNaN = true ∨ b.isNaN = true ∨ b ≤ a := by
  rw [lt_iff, le_iff, ← order?_swap a b, ← or_assoc, ← order?_eq_none_iff]
  cases order? a b with
  | none => simp
  | some o => cases o <;> simp

theorem not_le_iff : ¬ a ≤ b ↔ a.isNaN = true ∨ b.isNaN = true ∨ b < a := by
  rw [lt_iff, le_iff, ← order?_swap a b, ← or_assoc, ← order?_eq_none_iff]
  cases order? a b with
  | none => simp
  | some o => cases o <;> simp

/-- What can be compared is a number. -/
theorem isNaN_of_order? {o : Ordering} (compared : order? a b = some o) : a.isNaN = false ∧ b.isNaN = false := by
  have some : ¬ (a.isNaN = true ∨ b.isNaN = true) := by
    rw [← order?_eq_none_iff, compared]
    exact Option.some_ne_none o
  simp only [not_or, Bool.not_eq_true] at some
  exact some

theorem isNaN_of_lt (below : a < b) : a.isNaN = false ∧ b.isNaN = false := isNaN_of_order? (lt_iff.mp below)

theorem isNaN_of_le (below : a ≤ b) : a.isNaN = false ∧ b.isNaN = false := by
  obtain ⟨o, compared, _⟩ := le_iff.mp below
  exact isNaN_of_order? compared

/-- A float that is not found to be at most zero is positive, if it is a number. -/
theorem pos_iff_of_not_le (unrefuted : ¬ a ≤ 0) : 0 < a ↔ a.isNaN = false := by
  constructor
  · exact fun positive => (isNaN_of_lt positive).2
  · intro number
    rcases not_le_iff.mp unrefuted with nan | nan | positive
    · cases number.symm.trans nan
    · exact absurd nan (by decide)
    · exact positive

theorem le_iff_of_not_lt (unrefuted : ¬ a < b) : b ≤ a ↔ b.isNaN = false ∧ a.isNaN = false := by
  constructor
  · exact isNaN_of_le
  · rintro ⟨number, number'⟩
    rcases not_lt_iff.mp unrefuted with nan | nan | least
    · cases number'.symm.trans nan
    · cases number.symm.trans nan
    · exact least

theorem le_of_lt (below : a < b) : a ≤ b := le_iff.mpr ⟨.lt, lt_iff.mp below, rfl⟩

theorem le_refl_iff : a ≤ a ↔ a.isNaN = false := by
  constructor
  · exact fun same => (isNaN_of_le same).1
  · intro number
    by_cases same : a ≤ a
    · exact same
    · rcases not_le_iff.mp same with nan | nan | below
      · cases number.symm.trans nan
      · cases number.symm.trans nan
      · exact le_of_lt below

/-- The larger of two floats is not below the second one, as long as this is a number. -/
theorem le_largerFloat_iff : b ≤ largerFloat a b ↔ b.isNaN = false := by
  constructor
  · exact fun least => (isNaN_of_le least).1
  · intro number
    unfold largerFloat
    by_cases second : (a.isNaN || a < b) = true
    · rw [if_pos second]
      exact le_refl_iff.mpr number
    · rw [if_neg second]
      simp only [Bool.or_eq_true, decide_eq_true_eq, not_or] at second
      rcases not_lt_iff.mp second.2 with nan | nan | least
      · exact absurd nan second.1
      · cases number.symm.trans nan
      · exact least

end DesktopShell.Binary64

namespace DesktopShell.Rect
open Binary64

/-- A stretched rectangle that is held at a least size is at least as large, as long as this size is one of numbers. -/
theorem least_le_settle_iff (start : Rect Float) (edge : Edge) (stretched : Rect Float) (minWidth minHeight : Float) :
    (minWidth ≤ (start.settle edge stretched minWidth minHeight).width ↔ minWidth.isNaN = false) ∧
      (minHeight ≤ (start.settle edge stretched minWidth minHeight).height ↔ minHeight.isNaN = false) :=
  ⟨le_largerFloat_iff, le_largerFloat_iff⟩

end DesktopShell.Rect

namespace DesktopShell
open Binary64

theorem appsFlaw?_eq_none_iff {seen : List String} {apps : List App} :
    appsFlaw? seen apps = none ↔
      (∀ app ∈ apps, Text.trim app.id ≠ "" ∧ app.id ∉ seen) ∧ (apps.map (·.id)).Nodup := by
  induction apps generalizing seen with
  | nil => simp [appsFlaw?]
  | cons first rest ih =>
    rw [appsFlaw?]
    by_cases blank : Text.trim first.id = ""
    · simp [blank]
    · by_cases used : first.id ∈ seen
      · simp [blank, used]
      · -- What comes behind the first application may not have its id.
        have behind : (∀ app ∈ rest, Text.trim app.id ≠ "" ∧ app.id ∉ first.id :: seen) ↔
            (∀ app ∈ rest, Text.trim app.id ≠ "" ∧ app.id ∉ seen) ∧ first.id ∉ rest.map (·.id) := by
          simp only [List.mem_cons, not_or, List.mem_map, not_exists, not_and]
          constructor
          · intro free
            exact ⟨fun app member => ⟨(free app member).1, (free app member).2.2⟩,
              fun app member => (free app member).2.1⟩
          · rintro ⟨free, new⟩ app member
            exact ⟨(free app member).1, new app member, (free app member).2⟩
        rw [if_neg blank, if_neg (by simpa using used), ih, behind, List.map_cons, List.nodup_cons,
          List.forall_mem_cons]
        constructor
        · rintro ⟨⟨free, new⟩, apart⟩
          exact ⟨⟨⟨blank, used⟩, free⟩, new, apart⟩
        · rintro ⟨⟨_, free⟩, new, apart⟩
          exact ⟨⟨free, new⟩, apart⟩

theorem Defaults.flaw?_eq_none_iff {w : Defaults Float} :
    w.flaw? = none ↔
      (¬ w.minWidth ≤ 0 ∧ ¬ w.minHeight ≤ 0) ∧ ¬ w.width < w.minWidth ∧ ¬ w.height < w.minHeight := by
  simp only [flaw?, Bool.or_eq_true, decide_eq_true_eq, ← not_or]
  by_cases least : w.minWidth ≤ 0 ∨ w.minHeight ≤ 0
  · simp [least]
  · by_cases below : w.width < w.minWidth ∨ w.height < w.minHeight
    · simp [least, below]
    · simp [least, below]

theorem Config.fault?_eq_none_iff {config : Config Float} :
    config.fault? = none ↔
      config.schema = configVersion ∧ config.windows.flaw? = none ∧ appsFlaw? [] config.apps = none := by
  unfold fault?
  by_cases known : config.schema = configVersion
  · simp [known]
  · simp [known]

/-- The applications of a configuration that passes the check have ids of their own. -/
theorem Config.nodup_apps {config : Config Float} (accepted : config.fault? = none) :
    (config.apps.map (·.id)).Nodup :=
  (appsFlaw?_eq_none_iff.mp (fault?_eq_none_iff.mp accepted).2.2).2

/-- A window that has been stretched is as large as the least size, as far as this is one of numbers. -/
theorem Scene.least_le_stretchTo_iff (defaults : Defaults Float) (s : Scene Float) (now : UInt64)
    (pointer : Point Float) {stretch : Stretch Float} (active : s.gestures.stretch = some stretch)
    {w : Window Float} (found : (s.step defaults now (.stretchTo pointer)).1.desktop.window? stretch.window = some w) :
    (defaults.minWidth ≤ w.rect.width ↔ defaults.minWidth.isNaN = false) ∧
      (defaults.minHeight ≤ w.rect.height ↔ defaults.minHeight.isNaN = false) := by
  have follows : (Action.stretchTo pointer).followsPointer = true := rfl
  rw [step_of_follows defaults s follows now] at found
  simp only [Gestures.led?, active, Option.map_some, Option.getD_some, Desktop.window?_put] at found
  obtain ⟨v, _, rfl⟩ := Option.map_eq_some_iff.mp found
  exact Rect.least_le_settle_iff _ _ _ _ _

namespace Config

theorem fault?_of_ofToml {document : String} {config : Config Float} (accepted : ofToml document = .ok config) :
    config.fault? = none := by
  unfold ofToml at accepted
  cases read : (Toml.read? document).bind Config.reader.record? with
  | none => simp [read] at accepted
  | some given =>
    simp only [read, checked] at accepted
    cases faulty : given.fault? with
    | some fault => simp [faulty] at accepted
    | none =>
      simp only [faulty, Except.ok.injEq] at accepted
      exact accepted ▸ faulty

/-- A document that is accepted gives the supported version, and applications with ids of their own that are not
    blank. Its least size is positive, and new windows are not below it, as far as these sizes are numbers; and to
    stretch a window leaves it as large as the least size as far as this is positive. -/
theorem sizes_of_ofToml {document : String} {config : Config Float} (accepted : ofToml document = .ok config) :
    let w := config.windows
    config.schema = 1 ∧ (∀ app ∈ config.apps, Text.trim app.id ≠ "") ∧ (config.apps.map (·.id)).Nodup ∧
      ((0 < w.minWidth ↔ w.minWidth.isNaN = false) ∧ (0 < w.minHeight ↔ w.minHeight.isNaN = false)) ∧
      ((w.minWidth ≤ w.width ↔ w.minWidth.isNaN = false ∧ w.width.isNaN = false) ∧
        (w.minHeight ≤ w.height ↔ w.minHeight.isNaN = false ∧ w.height.isNaN = false)) ∧
      ∀ (s : Scene Float) now pointer stretch v, s.gestures.stretch = some stretch →
        (s.step w now (.stretchTo pointer)).1.desktop.window? stretch.window = some v →
        (0 < w.minWidth ↔ w.minWidth ≤ v.rect.width) ∧ (0 < w.minHeight ↔ w.minHeight ≤ v.rect.height) := by
  intro w
  obtain ⟨schema, flawless, apps⟩ := fault?_eq_none_iff.mp (fault?_of_ofToml accepted)
  obtain ⟨named, apart⟩ := appsFlaw?_eq_none_iff.mp apps
  obtain ⟨⟨wide, high⟩, width, height⟩ := Defaults.flaw?_eq_none_iff.mp flawless
  have positive : (0 < w.minWidth ↔ w.minWidth.isNaN = false) ∧ (0 < w.minHeight ↔ w.minHeight.isNaN = false) :=
    ⟨pos_iff_of_not_le wide, pos_iff_of_not_le high⟩
  refine ⟨schema, fun app member => (named app member).1, apart, positive,
    ⟨le_iff_of_not_lt width, le_iff_of_not_lt height⟩, ?_⟩
  intro s now pointer stretch v active found
  obtain ⟨across, down⟩ := s.least_le_stretchTo_iff w now pointer active found
  exact ⟨positive.1.trans across.symm, positive.2.trans down.symm⟩

private theorem exists_of_any {document : String} {holds : Config Float → Prop} [DecidablePred holds]
    (checked : (ofToml document).toOption.any (fun config => decide (holds config)) = true) :
    ∃ config, ofToml document = .ok config ∧ holds config := by
  cases accepted : ofToml document with
  | error fault => simp [accepted, Except.toOption] at checked
  | ok config => exact ⟨config, rfl, by simpa [accepted, Except.toOption] using checked⟩

/-- New windows may be infinitely high. A window cannot be stretched below the least width, however far the pointer
    goes. -/
theorem sizes_of_ofToml_infinite :
    let document := Text.unlines
      ["schema_version = 1", "windows = [300, inf, 1.5, 2, 7, -inf, nan, 0]", "[[apps]]", "id = ' notes'",
       "name = 'Notes'", "type = 'custom'", "icon = 'N'", "description = ''", "executable = ''"]
    let stretching (config : Config Float) : Scene Float :=
      let opened := ((Scene.start config).step config.windows 1 (.openApp " notes" none)).1
      (opened.step config.windows 2 (.beginStretch "win-1" .southEast ⟨0, 0⟩)).1
    ∃ config, ofToml document = .ok config ∧ 0 < config.windows.minWidth ∧
      config.windows.minHeight ≤ config.windows.height ∧
      ∃ v, ((stretching config).step config.windows 3 (.stretchTo ⟨-1000, -1e308⟩)).1.desktop.window? "win-1" = some v ∧
        config.windows.minWidth ≤ v.rect.width := by
  intro document stretching
  obtain ⟨config, accepted, number, numbers, named, there⟩ : ∃ config, ofToml document = .ok config ∧
      config.windows.minWidth.isNaN = false ∧
      (config.windows.minHeight.isNaN = false ∧ config.windows.height.isNaN = false) ∧
      (stretching config).gestures.stretch.map (·.window) = some "win-1" ∧
      (((stretching config).step config.windows 3 (.stretchTo ⟨-1000, -1e308⟩)).1.desktop.window? "win-1").isSome =
        true :=
    exists_of_any (by decide +kernel)
  obtain ⟨stretch, active, same⟩ := Option.map_eq_some_iff.mp named
  obtain ⟨v, found⟩ := Option.isSome_iff_exists.mp there
  obtain ⟨_, _, _, ⟨wide, _⟩, ⟨_, height⟩, held⟩ := sizes_of_ofToml accepted
  have positive : 0 < config.windows.minWidth := wide.mpr number
  have least := (held (stretching config) 3 ⟨-1000, -1e308⟩ stretch v active (same ▸ found)).1.mp positive
  exact ⟨config, accepted, positive, height.mpr numbers, v, found, least⟩

/-- Least sizes that are not numbers are accepted. They are not positive, new windows are not as large, and a window
    can be stretched until its width is below zero. -/
theorem sizes_of_ofToml_nan :
    let document := Text.unlines
      ["schema_version = 1", "[windows]", "default_width = 400", "default_height = 300", "min_width = nan",
       "min_height = nan", "initial_z_index = 100", "cascade_origin_x = 100", "cascade_origin_y = 50",
       "cascade_step = 30"]
    let stretched (config : Config Float) : Scene Float :=
      let opened := ((Scene.start standard).step config.windows 1 (.openApp "terminal" none)).1
      let s := (opened.step config.windows 2 (.beginStretch "win-1" .east ⟨0, 0⟩)).1
      (s.step config.windows 3 (.stretchTo ⟨-500, 0⟩)).1
    ∃ config, ofToml document = .ok config ∧ ¬ 0 < config.windows.minWidth ∧ ¬ 0 < config.windows.minHeight ∧
      ¬ config.windows.minWidth ≤ config.windows.width ∧ ¬ config.windows.minHeight ≤ config.windows.height ∧
      (stretched config).desktop.windows.map (·.rect.width) = [-100] := by
  intro document stretched
  exact exists_of_any (by decide +kernel)

end Config

end DesktopShell
