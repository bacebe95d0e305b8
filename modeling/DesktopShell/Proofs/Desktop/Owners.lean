import DesktopShell.Proofs.Desktop.Runs
import DesktopShell.Proofs.Text
import Mathlib.Order.WellFounded

/-!
# Owners of windows and icons

The applications that windows and icons belong to. Without restarts they are all in the
catalogue, so that an id which no application has belongs to nothing. Windows and icons
that are taken over may belong to applications of another run. A new application gets an
id that nothing belongs to just when the counter of applications has passed theirs
(`Reached.install_owns_nothing`).
-/
namespace DesktopShell

theorem Placement.apps_column {α : Type} [Coordinate α] (apps : List String) (order next : UInt64) :
    (column order next apps : List (Icon α) × UInt64).1.map (·.app) = apps := by
  induction apps generalizing order next with
  | nil => rfl
  | cons app rest ih => exact congrArg (app :: ·) (ih (order + 1) (Counter.next next))

namespace Desktop
variable {α : Type} {d next : Desktop α}

theorem isSome_findApp? {apps : List App} {id : String} :
    (findApp? apps id).isSome = true ↔ id ∈ apps.map (·.id) := by
  simp [findApp?, List.find?_isSome]

/-- With enough tries the first free number is found. -/
theorem freshAppId_eq {apps : List App} {tries : Nat} {n k : UInt64} (low : n ≤ k)
    (free : Counter.label "app" k ∉ apps.map (·.id))
    (taken : ∀ m, n ≤ m → m < k → Counter.label "app" m ∈ apps.map (·.id))
    (enough : k.toNat ≤ n.toNat + tries) : freshAppId apps tries n = (Counter.label "app" k, Counter.next k) := by
  induction tries generalizing n with
  | zero =>
    have same : n = k := UInt64.le_antisymm low (UInt64.le_iff_toNat_le.mpr enough)
    rw [same, freshAppId]
  | succ tries ih =>
    unfold freshAppId
    dsimp only
    by_cases used : Counter.label "app" n ∈ apps.map (·.id)
    · have apart : n ≠ k := fun same => free (same ▸ used)
      have below : n < k := UInt64.lt_of_le_of_ne low apart
      have after := Counter.next_toNat (Counter.ne_top_of_lt below)
      rw [if_pos (isSome_findApp?.mpr used)]
      refine ih (Counter.next_le below) ?_ (by omega)
      intro m later
      exact taken m (UInt64.le_trans (Counter.le_next n) later)
    · have same : n = k := by
        by_contra apart
        exact used (taken n (UInt64.le_refl n) (UInt64.lt_of_le_of_ne low apart))
      rw [if_neg (isSome_findApp?.not.mpr used), same]

/-- Numbers that all name applications are at most as many as there are applications. -/
theorem toNat_le_add_length {apps : List App} {n k : UInt64} (low : n ≤ k)
    (taken : ∀ m, n ≤ m → m < k → Counter.label "app" m ∈ apps.map (·.id)) : k.toNat ≤ n.toNat + apps.length := by
  have low' := UInt64.le_iff_toNat_le.mp low
  have fits := Counter.toNat_le_top k
  have room : n.toNat + (k.toNat - n.toNat) ≤ Counter.top.toNat := by omega
  have apart : (Counter.labels "app" (k.toNat - n.toNat) n).Nodup := Counter.nodup_labels room
  have used : Counter.labels "app" (k.toNat - n.toNat) n ⊆ apps.map (·.id) := by
    intro id made
    obtain ⟨m, rfl, later, below⟩ := (Counter.mem_labels_iff room).mp made
    exact taken m (UInt64.le_iff_toNat_le.mpr later) (UInt64.lt_iff_toNat_lt.mpr (by omega))
  have few := apart.length_le_of_subset used
  rw [Counter.length_labels, List.length_map] at few
  omega

/-- There is an id left for another application. -/
def HasAppId (d : Desktop α) : Prop := ∃ k, d.nextApp ≤ k ∧ Counter.label "app" k ∉ d.apps.map (·.id)

/-- As long as there are ids left, the next application gets the first one that no application has. -/
theorem exists_nextAppId (left : d.HasAppId) : ∃ k, d.nextApp ≤ k ∧ Counter.label "app" k ∉ d.apps.map (·.id) ∧
    (∀ m, d.nextApp ≤ m → m < k → Counter.label "app" m ∈ d.apps.map (·.id)) ∧
    d.nextAppId = (Counter.label "app" k, Counter.next k) := by
  obtain ⟨k, ⟨low, free⟩, least⟩ := (measure UInt64.toNat).wf.has_min
    {k | d.nextApp ≤ k ∧ Counter.label "app" k ∉ d.apps.map App.id} left
  have taken : ∀ m, d.nextApp ≤ m → m < k → Counter.label "app" m ∈ d.apps.map (·.id) := by
    intro m later below
    by_contra unused
    exact least m ⟨later, unused⟩ (UInt64.lt_iff_toNat_lt.mp below)
  exact ⟨k, low, free, taken, freshAppId_eq low free taken (toNat_le_add_length low taken)⟩

/-- The ids of the applications that windows and icons belong to. -/
def owners (d : Desktop α) : List String := d.windows.map (·.app) ++ d.icons.map (·.app)

/-- Every owner whose id is made from a number is in the catalogue, or the counter has passed its number. -/
def OwnersPassed (d : Desktop α) : Prop :=
  ∀ k, Counter.label "app" k ∈ d.owners → k < d.nextApp ∨ Counter.label "app" k ∈ d.apps.map (·.id)

namespace OwnersPassed

/-- What belongs to no application of the catalogue has no id that the next one may get. -/
theorem fresh (passed : d.OwnersPassed) {k : UInt64} (low : d.nextApp ≤ k)
    (free : Counter.label "app" k ∉ d.apps.map (·.id)) : Counter.label "app" k ∉ d.owners := by
  intro owner
  rcases passed k owner with before | listed
  · exact UInt64.not_lt.mpr low before
  · exact free listed

/-- New owners are in the catalogue as long as the catalogue stays. -/
theorem sameCatalogue (passed : d.OwnersPassed) (same : d.SameCatalogue next)
    (known : ∀ w ∈ next.windows, w.app ∈ d.windows.map (·.app) ∨ w.app ∈ d.apps.map (·.id)) : next.OwnersPassed := by
  intro k owner
  rw [same.nextApp, same.apps]
  rcases List.mem_append.mp owner with ofWindow | ofIcon
  · obtain ⟨w, member, named⟩ := List.mem_map.mp ofWindow
    rcases known w member with old | listed
    · exact passed k (List.mem_append_left _ (named ▸ old))
    · exact .inr (named ▸ listed)
  · exact passed k (List.mem_append_right _ (same.icons ▸ ofIcon))

theorem change (passed : d.OwnersPassed) (id : String) {f : Window α → Window α} (keeps : ∀ w, (f w).app = w.app) :
    (d.change id f).OwnersPassed := by
  refine passed.sameCatalogue ⟨rfl, rfl, rfl, rfl⟩ fun w member => .inl ?_
  have apps : (d.change id f).windows.map (·.app) = d.windows.map (·.app) := map_changeFirst Window.app keeps _
  exact apps ▸ List.mem_map_of_mem member

theorem remains (passed : d.OwnersPassed) (same : d.SameCatalogue next) (remains : d.Remains next) :
    next.OwnersPassed := by
  refine passed.sameCatalogue same fun w member => .inl ?_
  obtain ⟨v, old, later⟩ := remains.follows w member
  exact List.mem_map.mpr ⟨v, old, later.app.symm⟩

theorem raise (passed : d.OwnersPassed) (id : String) : (d.raise id).OwnersPassed := by
  refine passed.sameCatalogue ⟨rfl, rfl, rfl, rfl⟩ fun w member => .inl ?_
  obtain ⟨v, old, ⟨_, rfl⟩ | ⟨_, rfl⟩⟩ := mem_raise member
  · exact List.mem_map.mpr ⟨v, old, rfl⟩
  · exact List.mem_map.mpr ⟨v, old, rfl⟩

theorem addWindow [Coordinate α] (passed : d.OwnersPassed) {defaults : Defaults α} {now : UInt64} {app : App}
    {data : Option Json} (listed : app ∈ d.apps) : (d.addWindow defaults now app data).OwnersPassed := by
  refine passed.sameCatalogue ⟨rfl, rfl, rfl, rfl⟩ fun w member => ?_
  rcases mem_addWindow.mp member with old | rfl
  · exact .inl (List.mem_map_of_mem old)
  · exact .inr (List.mem_map_of_mem listed)

theorem removeApp (passed : d.OwnersPassed) (app : String) : (d.removeApp app).OwnersPassed := by
  intro k owner
  have kept : Counter.label "app" k ∈ d.owners ∧ Counter.label "app" k ≠ app := by
    rcases List.mem_append.mp owner with ofWindow | ofIcon
    · obtain ⟨w, member, named⟩ := List.mem_map.mp ofWindow
      obtain ⟨old, other⟩ := mem_removeApp.mp member
      exact named ▸ ⟨List.mem_append_left _ (List.mem_map_of_mem old), other⟩
    · obtain ⟨icon, member, named⟩ := List.mem_map.mp ofIcon
      obtain ⟨old, other⟩ := List.mem_filter.mp member
      exact named ▸ ⟨List.mem_append_right _ (List.mem_map_of_mem old), by simpa using other⟩
  rcases passed k kept.1 with before | listed
  · exact .inl before
  · obtain ⟨a, member, named⟩ := List.mem_map.mp listed
    have other : a.id ≠ app := by
      rw [named]
      exact kept.2
    exact .inr (List.mem_map.mpr ⟨a, List.mem_filter.mpr ⟨member, by simpa using other⟩, named⟩)

end OwnersPassed

/-- An installation lists the new application and gives it an icon. -/
theorem exists_addApp [Coordinate α] (d : Desktop α) (new : NewApp) : ∃ app icon,
    (d.addApp new).apps = d.apps ++ [app] ∧ (d.addApp new).icons = d.icons ++ [icon] ∧
      app.id = d.nextAppId.1 ∧ icon.app = d.nextAppId.1 :=
  ⟨_, _, rfl, rfl, rfl, rfl⟩

theorem le_freshAppId (apps : List App) (tries : Nat) (n : UInt64) : n ≤ (freshAppId apps tries n).2 := by
  induction tries generalizing n with
  | zero => exact Counter.le_next n
  | succ tries ih =>
    unfold freshAppId
    dsimp only
    split
    · exact UInt64.le_trans (Counter.le_next n) (ih _)
    · exact Counter.le_next n

theorem OwnersPassed.addApp [Coordinate α] (passed : d.OwnersPassed) (new : NewApp) :
    (d.addApp new).OwnersPassed := by
  obtain ⟨app, icon, apps, icons, given, belongs⟩ := d.exists_addApp new
  intro k owner
  rw [apps, List.map_append, List.mem_append]
  unfold owners at owner
  rw [icons, List.map_append, ← List.append_assoc, List.mem_append] at owner
  rcases owner with old | made
  · rcases passed k old with before | listed
    · exact .inl (UInt64.lt_of_lt_of_le before (le_freshAppId d.apps d.apps.length d.nextApp))
    · exact .inr (.inl listed)
  · rw [List.mem_singleton.mp made]
    exact .inr (.inr (by simp [given, belongs]))

theorem OwnersPassed.foldl_addApp [Coordinate α] (passed : d.OwnersPassed) (news : List NewApp) :
    (news.foldl Desktop.addApp d).OwnersPassed := by
  induction news generalizing d with
  | nil => exact passed
  | cons new rest ih => exact ih (passed.addApp new)

theorem mem_owners_foldl_addApp [Coordinate α] {name : String} (owner : name ∈ d.owners) (news : List NewApp) :
    name ∈ (news.foldl addApp d).owners := by
  induction news generalizing d with
  | nil => exact owner
  | cons new rest ih =>
    refine ih ?_
    obtain ⟨app, icon, _, icons, _, _⟩ := d.exists_addApp new
    unfold owners
    rw [icons, List.map_append, ← List.append_assoc]
    exact List.mem_append_left _ owner

/-- Installed often enough, some application gets a free number that the counter has not passed. -/
theorem exists_installs [Coordinate α] (new : NewApp) {k : UInt64} (low : d.nextApp ≤ k)
    (free : Counter.label "app" k ∉ d.apps.map (·.id)) : ∃ news : List NewApp,
    (news.foldl addApp d).HasAppId ∧ (news.foldl addApp d).nextAppId.1 = Counter.label "app" k := by
  induction gap : k.toNat - d.nextApp.toNat using Nat.strong_induction_on generalizing d with
  | _ width ih =>
    obtain ⟨j, low', free', least, given⟩ := exists_nextAppId ⟨k, low, free⟩
    have first : j ≤ k := UInt64.not_lt.mp fun above => free (least k low above)
    by_cases same : j = k
    · exact ⟨[], ⟨k, low, free⟩, by rw [← same]; exact congrArg Prod.fst given⟩
    · -- The next application gets another number, and the counter comes closer.
      have below : j < k := UInt64.lt_of_le_of_ne first same
      obtain ⟨app, _, apps, _, named, _⟩ := d.exists_addApp new
      have counter : (d.addApp new).nextApp = Counter.next j := congrArg Prod.snd given
      have closer : k.toNat - (d.addApp new).nextApp.toNat < width := by
        have start := UInt64.le_iff_toNat_le.mp low'
        have room := UInt64.lt_iff_toNat_lt.mp below
        rw [counter, Counter.next_toNat (Counter.ne_top_of_lt below)]
        omega
      have free'' : Counter.label "app" k ∉ (d.addApp new).apps.map (·.id) := by
        rw [apps, List.map_append, List.mem_append, not_or]
        refine ⟨free, fun made => same ?_⟩
        have shared : Counter.label "app" k = app.id := List.mem_singleton.mp made
        rw [named, given] at shared
        exact (Counter.label_inj shared).symm
      obtain ⟨rest, left, last⟩ := ih _ closer (counter ▸ Counter.next_le below) free'' rfl
      exact ⟨new :: rest, left, last⟩

/-- The counter has passed the owners just when no number of installations gives an application an id that
    something belongs to already. -/
theorem ownersPassed_iff [Coordinate α] : d.OwnersPassed ↔ ∀ news : List NewApp,
    (news.foldl addApp d).HasAppId → (news.foldl addApp d).nextAppId.1 ∉ (news.foldl addApp d).owners := by
  constructor
  · intro passed news left
    obtain ⟨k, low, free, _, given⟩ := exists_nextAppId left
    rw [given]
    exact (passed.foldl_addApp news).fresh low free
  · intro fresh k owner
    by_contra neither
    rw [not_or] at neither
    obtain ⟨news, left, given⟩ :=
      exists_installs ⟨"", .custom, "", "", "", false⟩ (UInt64.not_lt.mp neither.1) neither.2
    exact fresh news left (given ▸ mem_owners_foldl_addApp owner news)

end Desktop

namespace Scene
variable {α : Type} [Coordinate α] {config : Config α} {s : Scene α}

/-- When the action takes over a snapshot, the desktop's counter has passed the owners in it that are not in
    the catalogue. -/
def PassesOwners (s : Scene α) : Action α → Prop
  | .restore snapshot => (Restore.into s.desktop snapshot).OwnersPassed
  | _ => True

theorem start_ownersPassed (config : Config α) : (start config).desktop.OwnersPassed := by
  intro k owner
  have shown : (start config).desktop.icons.map (·.app) = (config.apps.filter (·.onDesktop)).map (·.id) :=
    Placement.apps_column _ 0 1
  rw [Desktop.owners, shown] at owner
  exact .inr ((List.filter_sublist.map _).subset owner)

theorem step_ownersPassed {defaults : Defaults α} {now : UInt64} {action : Action α}
    (passed : s.desktop.OwnersPassed) (passes : s.PassesOwners action) :
    (s.step defaults now action).1.desktop.OwnersPassed := by
  have outcome : s.Outcome defaults now action (s.step defaults now action) := s.step_outcome action
  generalize s.step defaults now action = after at *
  cases outcome with
  | idle _ => exact passed
  | move id x y => exact passed.change id fun _ => rfl
  | resize id width height => exact passed.change id fun _ => rfl
  | setData id fields => exact passed.change id fun _ => rfl
  | hide id _ => exact passed.change id fun _ => rfl
  | front id gestures _ _ => exact passed.raise id
  | close id => exact passed.remains ⟨rfl, rfl, rfl, rfl⟩ (.close _ id)
  | add id app data found _ =>
    have dimmed : s.desktop.unfocus.OwnersPassed := passed.remains ⟨rfl, rfl, rfl, rfl⟩ (.unfocus _)
    exact dimmed.addWindow (List.mem_of_find?_eq_some found)
  | follow id place _ _ _ => exact passed.change id fun _ => rfl
  | rest gestures _ => exact passed
  | install new => exact passed.addApp new
  | uninstall app clears =>
    have fewer := passed.removeApp app
    cases clears with
    | false => exact fewer
    | true => exact fewer.remains ⟨rfl, rfl, rfl, rfl⟩ (.unfocus _)
  | background background => exact passed
  | restore snapshot => exact passes

theorem Reached.ownersPassed {within : Scene α → Prop} (run : s.Reached config within PassesOwners) :
    s.desktop.OwnersPassed := by
  induction run with
  | start => exact start_ownersPassed config
  | step now action _ passes _ ih => exact step_ownersPassed ih passes

/-- A new application owns nothing that is there: no other application has its id and no window or icon belongs
    to it, in every run that takes over windows and icons only when its counter has passed their owners. This
    is what it takes: as long as a snapshot has another owner, some later installation gives its id away. -/
theorem Reached.install_owns_nothing (run : s.Reached config (fun _ => True) PassesOwners)
    (left : s.desktop.HasAppId) :
    (∀ (now : UInt64) (new : NewApp), ∃ app icon,
      let next := (s.step config.windows now (.install new)).1.desktop
      next.apps = s.desktop.apps ++ [app] ∧ next.icons = s.desktop.icons ++ [icon] ∧ icon.app = app.id ∧
        app.id ∉ s.desktop.apps.map (·.id) ∧ app.id ∉ s.desktop.owners) ∧
    ∀ snapshot, s.PassesOwners (.restore snapshot) ↔ ∀ news : List NewApp,
      let later := news.foldl Desktop.addApp (Restore.into s.desktop snapshot)
      later.HasAppId → later.nextAppId.1 ∉ later.owners := by
  refine ⟨fun now new => ?_, fun snapshot => Desktop.ownersPassed_iff⟩
  obtain ⟨k, low, free, _, given⟩ := Desktop.exists_nextAppId left
  obtain ⟨app, icon, apps, icons, named, belongs⟩ := s.desktop.exists_addApp new
  rw [given] at named belongs
  exact ⟨app, icon, apps, icons, belongs.trans named.symm, named ▸ free, named ▸ run.ownersPassed.fresh low free⟩

/-- A desktop takes over a window and an icon of an application that another run has installed after it has
    installed as many of its own, and gives another one an id after them. -/
theorem install_owns_nothing_restarted :
    let standard := Config.standard
    let notes : NewApp := ⟨"Notes", .custom, "★", "Store app", "Notes.fxo", false⟩
    let installed := ((start standard).step standard.windows 1 (.install notes)).1
    let saved := (installed.step standard.windows 2 (.openApp "app-1" none)).1
    let later := ((start standard).step standard.windows 3 (.install { notes with name := "Chess" })).1
    let s := (later.step standard.windows 4 (.restore saved.desktop.snapshot)).1
    let next := (s.step standard.windows 5 (.install notes)).1.desktop
    s.desktop.owners = ["app-1", "terminal", "vs-studio", "files", "browser", "web-store", "app-1"] ∧
      s.desktop.HasAppId ∧ ∃ app icon,
        next.apps = s.desktop.apps ++ [app] ∧ next.icons = s.desktop.icons ++ [icon] ∧ icon.app = app.id ∧
          app.id ∉ s.desktop.apps.map (·.id) ∧ app.id ∉ s.desktop.owners := by
  intro standard notes installed saved later s next
  have listed : ∀ name ∈ s.desktop.owners, name ∈ s.desktop.apps.map (·.id) := by decide +kernel
  have passes : later.PassesOwners (.restore saved.desktop.snapshot) := fun k owner => .inr (listed _ owner)
  have run : s.Reached standard (fun _ => True) PassesOwners :=
    .step 4 _ (.step 3 _ (.start trivial) trivial trivial) passes trivial
  have left : s.desktop.HasAppId := ⟨2, by decide +kernel, by decide +kernel⟩
  exact ⟨by decide +kernel, left, (Reached.install_owns_nothing run left).1 5 notes⟩

/-- A desktop that has just started takes over a window and an icon of an application that an earlier run has
    installed, and gives the id of that application to another one. -/
theorem install_owns_nothing_inherited :
    let standard := Config.standard
    let notes : NewApp := ⟨"Notes", .custom, "★", "Store app", "Notes.fxo", false⟩
    let installed := ((start standard).step standard.windows 1 (.install notes)).1
    let saved := (installed.step standard.windows 2 (.openApp "app-1" none)).1
    let s := ((start standard).step standard.windows 3 (.restore saved.desktop.snapshot)).1
    let next := (s.step standard.windows 4 (.install { notes with name := "Chess" })).1.desktop
    standard.fault?.isNone = true ∧ Lineage (fun _ => True) Eq standard s ∧
      s.desktop.windows.map (·.app) = ["app-1"] ∧ "app-1" ∈ s.desktop.icons.map (·.app) ∧
      next.app? "app-1" = some ⟨"app-1", "Chess", .custom, "★", "Store app", "Notes.fxo", true, false, true⟩ := by
  intro standard notes installed saved s next
  have atInstalled : Lineage (fun _ => True) Eq standard installed := .act 1 _ (.start standard trivial) rfl trivial
  have atSaved : Lineage (fun _ => True) Eq standard saved := .act 2 _ atInstalled rfl trivial
  have atEnd : Lineage (fun _ => True) Eq standard s := .restart 3 (.start standard trivial) atSaved rfl trivial
  exact ⟨by decide +kernel, atEnd, by decide +kernel, by decide +kernel, by decide +kernel⟩

end Scene

end DesktopShell
