import DesktopShell.Proofs.Desktop.Removal

/-!
# Gestures and other changes

A drag is to leave the size of its window alone, and a stretch of the right or lower edge
the corner. Either remembers the part that it holds so from its beginning, and writes it
back with every step. That changes nothing if and only if the window fits the gesture: if it
has that part still (`Desktop.places_change_iff`). What has changed there since is lost. So a
step of a gesture leaves alone what it is to leave alone if and only if the gesture still
fits its window (`Scene.follow_keeps_iff`), as it does in a run whose other actions keep away
from what gestures hold (`Scene.Reached.steady`).
-/
namespace DesktopShell

/-- The parts of a place: where its top left corner is, and how large it is. -/
inductive Rect.Part where
  | corner
  | size
deriving DecidableEq

def Rect.Part.get {α : Type} : Rect.Part → Rect α → α × α
  | .corner, r => (r.x, r.y)
  | .size, r => (r.width, r.height)

/-- The edges, and the corner between them, that are dragged while the top left corner stays. -/
def Edge.keepsCorner : Edge → Bool
  | .south | .east | .southEast => true
  | _ => false

/-- A part of the place of a window that a gesture on it is to leave alone, as the gesture remembers it. -/
structure Hold (α : Type) where
  window : String
  part : Rect.Part
  start : Rect α

/-- A drag is to leave the size of its window alone. -/
def Drag.hold {α : Type} (drag : Drag α) : Hold α := { window := drag.window, part := .size, start := drag.start }

/-- A stretch is to leave the corner of its window alone, unless it drags that. -/
def Stretch.hold {α : Type} (stretch : Stretch α) : Hold α :=
  { window := stretch.window, part := .corner, start := stretch.start }

theorem Drag.placeAt_holds {α : Type} [Coordinate α] (drag : Drag α) (pointer : Point α) :
    drag.hold.part.get (drag.placeAt pointer) = drag.hold.part.get drag.hold.start := rfl

theorem Stretch.placeAt_holds {α : Type} [Coordinate α] {stretch : Stretch α}
    (keeps : stretch.edge.keepsCorner = true) (defaults : Defaults α) (pointer : Point α) :
    stretch.hold.part.get (stretch.placeAt defaults pointer) = stretch.hold.part.get stretch.hold.start := by
  obtain ⟨west, north⟩ : stretch.edge.hasWest = false ∧ stretch.edge.hasNorth = false := by
    cases edge : stretch.edge <;> simp_all [Edge.keepsCorner, Edge.hasWest, Edge.hasNorth]
  simp [Rect.Part.get, hold, placeAt, Rect.settle, Rect.stretch, Rect.atLeast, west, north]

def Gestures.holds {α : Type} (g : Gestures α) : List (Hold α) :=
  g.drag.toList.map (·.hold) ++ (g.stretch.toList.filter (·.edge.keepsCorner)).map (·.hold)

section
variable {α : Type} {g : Gestures α} {hold : Hold α}

theorem Gestures.mem_holds : hold ∈ g.holds ↔
    (∃ drag, g.drag = some drag ∧ drag.hold = hold) ∨
      ∃ stretch, g.stretch = some stretch ∧ stretch.edge.keepsCorner = true ∧ stretch.hold = hold := by
  simp [holds, and_assoc]

theorem Gestures.mem_windows_of_holds (member : hold ∈ g.holds) : hold.window ∈ g.windows := by
  rcases mem_holds.mp member with ⟨drag, active, rfl⟩ | ⟨stretch, active, _, rfl⟩
  · simp [windows, active, Drag.hold]
  · simp [windows, active, Stretch.hold]

/-- Gestures that go on hold what they held. -/
theorem Gestures.holds_subset {next : Gestures α} (drag : ∀ d, next.drag = some d → g.drag = some d)
    (stretch : ∀ t, next.stretch = some t → g.stretch = some t) : next.holds ⊆ g.holds := by
  intro hold member
  rcases mem_holds.mp member with ⟨d, active, made⟩ | ⟨t, active, keeps, made⟩
  · exact mem_holds.mpr (.inl ⟨d, drag d active, made⟩)
  · exact mem_holds.mpr (.inr ⟨t, stretch t active, keeps, made⟩)

theorem Gestures.holds_without (g : Gestures α) (id : String) : (g.without id).holds ⊆ g.holds :=
  holds_subset (fun _ active => (Option.filter_eq_some_iff.mp active).1)
    fun _ active => (Option.filter_eq_some_iff.mp active).1

theorem Gestures.holds_foldl_without (g : Gestures α) (ids : List String) :
    (ids.foldl without g).holds ⊆ g.holds := by
  induction ids generalizing g with
  | nil => exact List.Subset.refl _
  | cons id rest ih => exact List.Subset.trans (ih _) (g.holds_without id)

end

namespace Desktop
variable {α : Type} {d next : Desktop α} {hold : Hold α}

/-- The window of a gesture has the part of its place still that the gesture remembers. -/
def Fits (d : Desktop α) (hold : Hold α) : Prop :=
  ∀ w, d.window? hold.window = some w → hold.part.get w.rect = hold.part.get hold.start

/-- That part of the places of all windows. -/
def places (d : Desktop α) (part : Rect.Part) : List (α × α) := d.windows.map fun w => part.get w.rect

/-- A place with the part that is held is put where it was just when it fits. -/
theorem places_change_iff {place : Rect α} (held : hold.part.get place = hold.part.get hold.start) :
    (d.change hold.window fun w => { w with rect := place }).places hold.part = d.places hold.part ↔
      d.Fits hold := by
  refine (map_changeFirst_eq_iff (fun w : Window α => hold.part.get w.rect) d.windows).trans ?_
  change (∀ w, d.window? hold.window = some w → hold.part.get place = hold.part.get w.rect) ↔ _
  simp only [held, Fits, eq_comm]

namespace Fits

/-- What keeps that part of the window keeps a fit. -/
theorem keep (fits : d.Fits hold) {f : Window α → Window α}
    (found : next.window? hold.window = (d.window? hold.window).map f)
    (keeps : ∀ w, hold.part.get (f w).rect = hold.part.get w.rect) : next.Fits hold := by
  intro w there
  obtain ⟨v, before, rfl⟩ := Option.map_eq_some_iff.mp (found.symm.trans there)
  exact (keeps v).trans (fits v before)

theorem same (fits : d.Fits hold) (found : next.window? hold.window = d.window? hold.window) : next.Fits hold :=
  fits.keep (f := id) (by rw [found, Option.map_id, id]) fun _ => rfl

theorem change (fits : d.Fits hold) {id : String} {f : Window α → Window α} (named : ∀ w, (f w).id = w.id)
    (keeps : hold.window = id → ∀ w, hold.part.get w.rect = hold.part.get hold.start →
      hold.part.get (f w).rect = hold.part.get hold.start) : (d.change id f).Fits hold := by
  by_cases own : hold.window = id
  · intro w there
    have found : (d.change id f).window? hold.window = (d.window? hold.window).map f := by
      rw [own]
      exact find?_changeFirst_self (fun v => by rw [named]) d.windows
    obtain ⟨v, before, rfl⟩ := Option.map_eq_some_iff.mp (found.symm.trans there)
    exact keeps own v (fits v before)
  · refine fits.same (find?_changeFirst_of_disjoint (fun v here => ?_) (fun v => by rw [named]) d.windows)
    have elsewhere : v.id ≠ hold.window := of_decide_eq_true here ▸ Ne.symm own
    exact decide_eq_false elsewhere

/-- So do changes of all windows that keep their ids and that part of them. -/
theorem map (fits : d.Fits hold) {f : Window α → Window α} (windows : next.windows = d.windows.map f)
    (named : ∀ w, (f w).id = w.id) (keeps : ∀ w, hold.part.get (f w).rect = hold.part.get w.rect) :
    next.Fits hold := by
  refine fits.keep ?_ keeps
  unfold window?
  rw [windows, List.find?_map]
  simp only [Function.comp_def, named]

theorem unfocus (fits : d.Fits hold) : d.unfocus.Fits hold := fits.map rfl (fun _ => rfl) fun _ => rfl

theorem raise (fits : d.Fits hold) (id : String) : (d.raise id).Fits hold := by
  refine fits.map rfl (fun w => ?_) fun w => ?_
  · split <;> rfl
  · split <;> rfl

theorem remove (fits : d.Fits hold) {id : String} (other : hold.window ≠ id) : (d.remove id).Fits hold := by
  refine fits.same (find?_eraseP_of_disjoint (fun v here => ?_) d.windows)
  have elsewhere : v.id ≠ hold.window := of_decide_eq_true here ▸ Ne.symm other
  exact decide_eq_false elsewhere

theorem removeApp (fits : d.Fits hold) {app : String} (spared : hold.window ∉ d.windowsOf app) :
    (d.removeApp app).Fits hold := by
  refine fits.same ?_
  simp only [window?, Desktop.removeApp, ← List.head?_filter, List.filter_filter]
  refine congrArg List.head? (List.filter_congr fun v member => ?_)
  by_cases named : v.id = hold.window
  · have other : v.app ≠ app := fun own => spared (List.mem_map.mpr ⟨v, by simp [member, own], named⟩)
    simp [other]
  · simp [named]

/-- A window that is there is found before the new one. -/
theorem addWindow [Coordinate α] (fits : d.Fits hold) (there : hold.window ∈ d.windows.map (·.id))
    {defaults : Defaults α} {now : UInt64} {app : App} {data : Option Json} :
    (d.addWindow defaults now app data).Fits hold := by
  refine fits.same (List.find?_append.trans ?_)
  change (d.window? hold.window).or _ = d.window? hold.window
  obtain ⟨w, member, named⟩ := List.mem_map.mp there
  cases found : d.window? hold.window with
  | none => exact absurd (decide_eq_true named) (List.find?_eq_none.mp found w member)
  | some v => rfl

end Fits

end Desktop

namespace Scene
variable {α : Type} {s : Scene α} {hold : Hold α}

/-- The part of the place of a window that an action is there to change. -/
def changes (s : Scene α) : Action α → Option (String × Rect.Part)
  | .move id _ _ => some (id, .corner)
  | .resize id _ _ => some (id, .size)
  | .dragTo _ => s.gestures.drag.map fun drag => (drag.window, .corner)
  | .stretchTo _ => s.gestures.stretch.map fun stretch => (stretch.window, .size)
  | _ => none

/-- The action changes nothing that a gesture under way is to leave alone. -/
def Undisturbed (s : Scene α) (action : Action α) : Prop :=
  ∀ hold ∈ s.gestures.holds, s.changes action ≠ some (hold.window, hold.part)

instance (s : Scene α) (action : Action α) : Decidable (s.Undisturbed action) :=
  inferInstanceAs (Decidable (∀ hold ∈ s.gestures.holds, s.changes action ≠ some (hold.window, hold.part)))

/-- The gestures under way fit their windows. -/
def Steady (s : Scene α) : Prop := ∀ hold ∈ s.gestures.holds, s.desktop.Fits hold

theorem gestures_edit (s : Scene α) (id : String) (f : Window α → Window α) :
    (s.edit id f).1.gestures = s.gestures := by
  unfold edit
  split <;> rfl

theorem gestures_focus (s : Scene α) (id : String) : (s.focus id).1.gestures = s.gestures := by
  unfold focus
  split <;> rfl

theorem gestures_toggle (s : Scene α) (id : String) : (s.toggle id).1.gestures = s.gestures := by
  unfold toggle
  split
  · rfl
  · split
    · exact s.gestures_edit id _
    · exact s.gestures_focus id

theorem gestures_setData (s : Scene α) (id : String) (patch : Json) :
    (s.setData id patch).1.gestures = s.gestures := by
  unfold setData
  split
  · exact s.gestures_edit id _
  · rfl

theorem gestures_openApp [Coordinate α] {defaults : Defaults α} {now : UInt64} (s : Scene α) (app : String)
    (data : Option Json) :
    (s.openApp defaults now app data).1.gestures = s.gestures := by
  unfold openApp
  split
  · rfl
  · split
    · exact s.gestures_focus _
    · rfl

theorem gestures_dragTo [Coordinate α] (s : Scene α) (pointer : Point α) :
    (s.dragTo pointer).1.gestures = s.gestures := by
  unfold dragTo
  split <;> rfl

theorem gestures_stretchTo [Coordinate α] {defaults : Defaults α} (s : Scene α) (pointer : Point α) :
    (s.stretchTo defaults pointer).1.gestures = s.gestures := by
  unfold stretchTo
  split <;> rfl

/-- What a gesture is to leave alone it remembers as it finds it. -/
theorem mem_holds_beginDrag {id : String} {pointer : Point α}
    (member : hold ∈ (s.beginDrag id pointer).1.gestures.holds) :
    hold ∈ s.gestures.holds ∨ ∃ w, s.desktop.window? hold.window = some w ∧ hold.start = w.rect := by
  unfold beginDrag at member
  split at member
  · exact .inl member
  · rename_i w found
    simp only [gestures_focus] at member
    rcases Gestures.mem_holds.mp member with ⟨drag, active, rfl⟩ | old
    · obtain rfl := Option.some.inj active
      exact .inr ⟨w, found, rfl⟩
    · exact .inl (Gestures.mem_holds.mpr (.inr old))

theorem mem_holds_beginStretch {id : String} {edge : Edge} {pointer : Point α}
    (member : hold ∈ (s.beginStretch id edge pointer).1.gestures.holds) :
    hold ∈ s.gestures.holds ∨ ∃ w, s.desktop.window? hold.window = some w ∧ hold.start = w.rect := by
  unfold beginStretch at member
  split at member
  · exact .inl member
  · rename_i w found
    simp only [gestures_focus] at member
    rcases Gestures.mem_holds.mp member with old | ⟨stretch, active, _, rfl⟩
    · exact .inl (Gestures.mem_holds.mpr (.inl old))
    · obtain rfl := Option.some.inj active
      exact .inr ⟨w, found, rfl⟩

/-- A step begins a gesture with what it finds, if it begins one. -/
theorem mem_holds_step [Coordinate α] {defaults : Defaults α} {now : UInt64} {action : Action α}
    (member : hold ∈ (s.step defaults now action).1.gestures.holds) :
    hold ∈ s.gestures.holds ∨
      s.changes action = none ∧ ∃ w, s.desktop.window? hold.window = some w ∧ hold.start = w.rect := by
  cases action with
  | openApp app data => exact .inl (s.gestures_openApp app data ▸ member)
  | close id =>
    simp only [step, close] at member
    split at member
    · exact .inl (Gestures.holds_without _ _ member)
    · exact .inl member
  | focus id => exact .inl (s.gestures_focus id ▸ member)
  | minimize id => exact .inl (s.gestures_edit id _ ▸ member)
  | move id x y => exact .inl (s.gestures_edit id _ ▸ member)
  | resize id width height => exact .inl (s.gestures_edit id _ ▸ member)
  | setData id patch => exact .inl (s.gestures_setData id patch ▸ member)
  | toggle id => exact .inl (s.gestures_toggle id ▸ member)
  | beginDrag id pointer => exact (mem_holds_beginDrag member).imp_right fun begun => ⟨rfl, begun⟩
  | dragTo pointer => exact .inl (s.gestures_dragTo pointer ▸ member)
  | endDrag =>
    simp only [step, endDrag] at member
    split at member
    · exact .inl member
    · have fewer : (⟨none, s.gestures.stretch⟩ : Gestures α).holds ⊆ s.gestures.holds :=
        Gestures.holds_subset (by simp) fun _ => id
      exact .inl (fewer member)
  | beginStretch id edge pointer => exact (mem_holds_beginStretch member).imp_right fun begun => ⟨rfl, begun⟩
  | stretchTo pointer => exact .inl (s.gestures_stretchTo pointer ▸ member)
  | endStretch =>
    simp only [step, endStretch] at member
    split at member
    · exact .inl member
    · have fewer : (⟨s.gestures.drag, none⟩ : Gestures α).holds ⊆ s.gestures.holds :=
        Gestures.holds_subset (fun _ => id) (by simp)
      exact .inl (fewer member)
  | install new => exact .inl member
  | uninstall app =>
    simp only [step, uninstall] at member
    split at member
    · exact .inl member
    · exact .inl (Gestures.holds_foldl_without _ _ member)
  | setBackground background =>
    simp only [step, setBackground] at member
    split at member <;> exact .inl member
  | restore snapshot => simp [step, Gestures.holds, Gestures.none] at member

section
variable (fits : s.desktop.Fits hold)
include fits

theorem fits_edit (id : String) {f : Window α → Window α} (named : ∀ w, (f w).id = w.id)
    (keeps : hold.window = id → ∀ w, hold.part.get (f w).rect = hold.part.get w.rect) :
    (s.edit id f).1.desktop.Fits hold := by
  unfold edit
  split
  · exact fits.change named fun own w same => (keeps own w).trans same
  · exact fits

theorem fits_minimize (id : String) : (s.minimize id).1.desktop.Fits hold :=
  fits_edit fits id (fun _ => rfl) fun _ _ => rfl

theorem fits_focus (id : String) : (s.focus id).1.desktop.Fits hold := by
  unfold focus
  split
  · exact fits.raise id
  · exact fits

theorem fits_toggle (id : String) : (s.toggle id).1.desktop.Fits hold := by
  unfold toggle
  split
  · exact fits
  · split
    · exact fits_minimize fits id
    · exact fits_focus fits id

theorem fits_setData (id : String) (patch : Json) : (s.setData id patch).1.desktop.Fits hold := by
  unfold setData
  split
  · exact fits_edit fits id (fun _ => rfl) fun _ _ => rfl
  · exact fits

theorem fits_beginDrag (id : String) (pointer : Point α) : (s.beginDrag id pointer).1.desktop.Fits hold := by
  unfold beginDrag
  split
  · exact fits
  · exact fits_focus fits id

theorem fits_beginStretch (id : String) (edge : Edge) (pointer : Point α) :
    (s.beginStretch id edge pointer).1.desktop.Fits hold := by
  unfold beginStretch
  split
  · exact fits
  · exact fits_focus fits id

/-- A closed window has no gesture on it any more. -/
theorem fits_close {id : String} (on : hold.window ∈ (s.close id).1.gestures.windows) :
    (s.close id).1.desktop.Fits hold := by
  unfold close at on ⊢
  split
  · rename_i present
    simp only [present, if_true, Gestures.windows_without, List.mem_filter, decide_eq_true_eq] at on
    exact (fits.remove on.2).unfocus
  · exact fits

theorem fits_uninstall {app : String} (on : hold.window ∈ (s.uninstall app).1.gestures.windows) :
    (s.uninstall app).1.desktop.Fits hold := by
  unfold uninstall at on ⊢
  split
  · exact fits
  · rename_i a found
    simp only [found] at on
    have rest := fits.removeApp (Gestures.mem_windows_foldl_without.mp on).2
    dsimp only
    split
    · exact rest.unfocus
    · exact rest

variable [Coordinate α] {defaults : Defaults α} {now : UInt64}

theorem fits_openApp (there : hold.window ∈ s.desktop.windows.map (·.id)) (app : String) (data : Option Json) :
    (s.openApp defaults now app data).1.desktop.Fits hold := by
  unfold openApp
  split
  · exact fits
  · split
    · exact fits_focus fits _
    · exact fits.unfocus.addWindow (Desktop.ids_unfocus s.desktop ▸ there)

/-- A drag leaves alone what it holds itself, and what a stretch of another window does. -/
theorem fits_dragTo {pointer : Point α} (on : hold ∈ s.gestures.holds)
    (apart : s.changes (.dragTo pointer) ≠ some (hold.window, hold.part)) :
    (s.dragTo pointer).1.desktop.Fits hold := by
  unfold dragTo
  split
  · exact fits
  · rename_i drag active
    refine fits.change (fun _ => rfl) fun own w _ => ?_
    -- A stretch that holds the corner of the dragged window is what the hypothesis rules out.
    rcases Gestures.mem_holds.mp on with ⟨same, active', rfl⟩ | ⟨stretch, _, _, rfl⟩
    · obtain rfl := Option.some.inj (active.symm.trans active')
      exact drag.placeAt_holds pointer
    · exact absurd (by simpa [changes, active, Stretch.hold] using own.symm) apart

theorem fits_stretchTo {pointer : Point α} (on : hold ∈ s.gestures.holds)
    (apart : s.changes (.stretchTo pointer) ≠ some (hold.window, hold.part)) :
    (s.stretchTo defaults pointer).1.desktop.Fits hold := by
  unfold stretchTo
  split
  · exact fits
  · rename_i stretch active
    refine fits.change (fun _ => rfl) fun own w _ => ?_
    rcases Gestures.mem_holds.mp on with ⟨drag, _, rfl⟩ | ⟨same, active', keeps, rfl⟩
    · exact absurd (by simpa [changes, active, Drag.hold] using own.symm) apart
    · obtain rfl := Option.some.inj (active.symm.trans active')
      exact Stretch.placeAt_holds keeps defaults pointer

/-- What is held before and after an action that keeps away from it fits after it as before. -/
theorem fits_step {action : Action α} (there : hold.window ∈ s.desktop.windows.map (·.id))
    (on : hold ∈ (s.step defaults now action).1.gestures.holds)
    (apart : s.changes action ≠ some (hold.window, hold.part)) :
    (s.step defaults now action).1.desktop.Fits hold := by
  have onWindow := Gestures.mem_windows_of_holds on
  cases action with
  | openApp app data => exact fits_openApp fits there app data
  | close id => exact fits_close fits onWindow
  | focus id => exact fits_focus fits id
  | minimize id => exact fits_minimize fits id
  | move id x y =>
    refine fits_edit fits id (fun _ => rfl) fun own w => ?_
    cases part : hold.part with
    | corner => exact absurd (by rw [own, part]; rfl) apart
    | size => rfl
  | resize id width height =>
    refine fits_edit fits id (fun _ => rfl) fun own w => ?_
    cases part : hold.part with
    | corner => rfl
    | size => exact absurd (by rw [own, part]; rfl) apart
  | setData id patch => exact fits_setData fits id patch
  | toggle id => exact fits_toggle fits id
  | beginDrag id pointer => exact fits_beginDrag fits id pointer
  | dragTo pointer => exact fits_dragTo fits (s.gestures_dragTo pointer ▸ on) apart
  | endDrag =>
    simp only [step, endDrag]
    split <;> exact fits
  | beginStretch id edge pointer => exact fits_beginStretch fits id edge pointer
  | stretchTo pointer => exact fits_stretchTo fits (s.gestures_stretchTo pointer ▸ on) apart
  | endStretch =>
    simp only [step, endStretch]
    split <;> exact fits
  | install new => exact fits
  | uninstall app => exact fits_uninstall fits onWindow
  | setBackground background =>
    simp only [step, setBackground]
    split <;> exact fits
  | restore snapshot => simp [step, Gestures.holds, Gestures.none] at on

end

variable [Coordinate α] {config : Config α} {defaults : Defaults α} {now : UInt64}

theorem Steady.step (steady : s.Steady) (held : s.Held) {action : Action α} (undisturbed : s.Undisturbed action) :
    (s.step defaults now action).1.Steady := by
  intro hold on
  rcases mem_holds_step on with old | ⟨still, w, found, begun⟩
  · have there := held hold.window (Gestures.mem_windows_of_holds old)
    exact fits_step (steady hold old) there on (undisturbed hold old)
  · -- A gesture that this step begins remembers the place that the window has.
    have there := Desktop.hasWindow_iff.mp (Desktop.hasWindow_of_window? found)
    have fits : s.desktop.Fits hold := by
      intro v found'
      rw [begun, Option.some.inj (found.symm.trans found')]
    exact fits_step fits there on (by simp [still])

/-- Gestures fit their windows all along a run whose actions change nothing that gestures are to leave alone. -/
theorem Reached.steady {within : Scene α → Prop} (run : s.Reached config within Undisturbed) : s.Steady := by
  have both : s.Held ∧ s.Steady := by
    induction run with
    | start _ =>
      refine ⟨fun id on => ?_, fun hold on => ?_⟩
      · exact absurd on List.not_mem_nil
      · exact absurd on List.not_mem_nil
    | step now action _ undisturbed _ ih =>
      obtain ⟨held, steady⟩ := ih
      exact ⟨held.step action, steady.step held undisturbed⟩
  exact both.2

/-- A drag keeps the sizes of all windows just when it fits. -/
theorem sizes_dragTo_iff (pointer : Point α) :
    (s.dragTo pointer).1.desktop.places .size = s.desktop.places .size ↔
      ∀ drag, s.gestures.drag = some drag → s.desktop.Fits drag.hold := by
  cases active : s.gestures.drag with
  | none => simp [dragTo, active, unchanged]
  | some drag =>
    simp only [dragTo, active, Option.some.injEq, forall_eq']
    exact Desktop.places_change_iff (drag.placeAt_holds pointer)

/-- A stretch that does not drag the corner keeps the corners of all windows just when it fits. -/
theorem corners_stretchTo_iff
    (keeps : ∀ stretch, s.gestures.stretch = some stretch → stretch.edge.keepsCorner = true) (pointer : Point α) :
    (s.stretchTo defaults pointer).1.desktop.places .corner = s.desktop.places .corner ↔
      ∀ stretch, s.gestures.stretch = some stretch → s.desktop.Fits stretch.hold := by
  cases active : s.gestures.stretch with
  | none => simp [stretchTo, active, unchanged]
  | some stretch =>
    simp only [stretchTo, active, Option.some.injEq, forall_eq']
    exact Desktop.places_change_iff (Stretch.placeAt_holds (keeps stretch active) defaults pointer)

/-- A step of a drag leaves the sizes of all windows alone if and only if the dragged window still has the size that it
    had when the drag began; and a step of a stretch that does not drag the corner leaves the corners alone if and only
    if the stretched window still has the corner that it had then. So they do in every run whose actions change nothing
    that the gestures under way are to leave alone. -/
theorem follow_keeps_iff (config : Config α) (s : Scene α) (now : UInt64) (pointer : Point α) :
    let sized := (s.step config.windows now (.dragTo pointer)).1.desktop.places .size = s.desktop.places .size
    let cornered :=
      (s.step config.windows now (.stretchTo pointer)).1.desktop.places .corner = s.desktop.places .corner
    let straight := ∀ stretch, s.gestures.stretch = some stretch → stretch.edge.keepsCorner = true
    (sized ↔ ∀ drag, s.gestures.drag = some drag → s.desktop.Fits drag.hold) ∧
      (straight → (cornered ↔ ∀ stretch, s.gestures.stretch = some stretch → s.desktop.Fits stretch.hold)) ∧
      (s.Reached config (fun _ => True) Undisturbed → sized ∧ (straight → cornered)) := by
  intro sized cornered straight
  have drags : sized ↔ _ := sizes_dragTo_iff pointer
  have stretches (keeps : straight) : cornered ↔ _ := corners_stretchTo_iff keeps pointer
  refine ⟨drags, stretches, fun run => ⟨?_, fun keeps => ?_⟩⟩
  · exact drags.mpr fun drag active => run.steady _ (Gestures.mem_holds.mpr (.inl ⟨drag, active, rfl⟩))
  · refine (stretches keeps).mpr fun stretch active => run.steady _ ?_
    exact Gestures.mem_holds.mpr (.inr ⟨stretch, active, keeps stretch active, rfl⟩)

/-- One window is dragged and moved by a script meanwhile, and another one is stretched at its corner and resized.
    Neither gesture undoes what the script has done with the window of the other. -/
theorem follow_keeps_iff_apart :
    let standard := Config.standard
    let one := ((start standard).step standard.windows 1 (.openApp "terminal" none)).1
    let two := (one.step standard.windows 2 (.openApp "browser" none)).1
    let dragging := (two.step standard.windows 3 (.beginDrag "win-1" ⟨0, 0⟩)).1
    let stretching := (dragging.step standard.windows 4 (.beginStretch "win-2" .southEast ⟨0, 0⟩)).1
    let resized := (stretching.step standard.windows 5 (.resize "win-2" 640 480)).1
    let s := (resized.step standard.windows 6 (.move "win-1" 7 8)).1
    let dragged := (s.step standard.windows 7 (.dragTo ⟨10, 20⟩)).1.desktop
    let stretched := (s.step standard.windows 7 (.stretchTo ⟨10, 20⟩)).1.desktop
    s.desktop.places .size = [(400, 300), (640, 480)] ∧ dragged.places .size = s.desktop.places .size ∧
      s.desktop.places .corner = [(7, 8), (130, 80)] ∧ stretched.places .corner = s.desktop.places .corner := by
  intro standard one two dragging stretching resized s dragged stretched
  have atTwo : two.Reached standard (fun _ => True) Undisturbed :=
    .step 2 _ (.step 1 _ (.start trivial) (by decide +kernel) trivial) (by decide +kernel) trivial
  have atStretching : stretching.Reached standard (fun _ => True) Undisturbed :=
    .step 4 _ (.step 3 _ atTwo (by decide +kernel) trivial) (by decide +kernel) trivial
  have run : s.Reached standard (fun _ => True) Undisturbed :=
    .step 6 _ (.step 5 _ atStretching (by decide +kernel) trivial) (by decide +kernel) trivial
  have straight : ∀ stretch, s.gestures.stretch = some stretch → stretch.edge.keepsCorner = true :=
    Option.all_eq_true _ _ |>.mp (by decide +kernel)
  obtain ⟨_, _, apart⟩ := follow_keeps_iff standard s 7 ⟨10, 20⟩
  obtain ⟨sized, cornered⟩ := apart run
  exact ⟨by decide +kernel, sized, by decide +kernel, cornered straight⟩

/-- A dragged window that is resized meanwhile gets its old size back with the next step of the drag, and one that is
    stretched at its lower right corner and moved meanwhile gets its old place back. -/
theorem follow_keeps_iff_overtaken :
    let standard := Config.standard
    let opened := ((start standard).step standard.windows 1 (.openApp "terminal" none)).1
    let dragging := (opened.step standard.windows 2 (.beginDrag "win-1" ⟨0, 0⟩)).1
    let resized := (dragging.step standard.windows 3 (.resize "win-1" 640 480)).1
    let stretching := (opened.step standard.windows 2 (.beginStretch "win-1" .southEast ⟨0, 0⟩)).1
    let moved := (stretching.step standard.windows 3 (.move "win-1" 7 8)).1
    standard.fault?.isNone = true ∧ resized.Reached standard (fun _ => True) (fun _ _ => True) ∧
      moved.Reached standard (fun _ => True) (fun _ _ => True) ∧
      resized.desktop.places .size = [(640, 480)] ∧
      (resized.step standard.windows 4 (.dragTo ⟨10, 20⟩)).1.desktop.places .size = [(400, 300)] ∧
      moved.desktop.places .corner = [(7, 8)] ∧
      (moved.step standard.windows 4 (.stretchTo ⟨10, 20⟩)).1.desktop.places .corner = [(100, 50)] := by
  intro standard opened dragging resized stretching moved
  have atOpened : opened.Reached standard (fun _ => True) (fun _ _ => True) :=
    .step 1 _ (.start trivial) trivial trivial
  have atResized : resized.Reached standard (fun _ => True) (fun _ _ => True) :=
    .step 3 _ (.step 2 _ atOpened trivial trivial) trivial trivial
  have atMoved : moved.Reached standard (fun _ => True) (fun _ _ => True) :=
    .step 3 _ (.step 2 _ atOpened trivial trivial) trivial trivial
  exact ⟨by decide +kernel, atResized, atMoved, by decide +kernel, by decide +kernel, by decide +kernel,
    by decide +kernel⟩

end Scene

end DesktopShell
