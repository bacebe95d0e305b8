import DesktopShell.Proofs.Desktop.Owners

/-!
# Ids for installed applications

The search for an id tries one number after another, whatever ids the applications have. It
tries at most one more than there are applications, since as many numbers that all name
applications are as many applications (`search_of_least`, `toNat_le_add_length`). The counter
never goes back, so that no id is given twice before the counter comes to its end
(`Scene.appIds_assigned`).
-/
namespace DesktopShell

namespace Desktop
variable {α : Type} {d next : Desktop α}

/-- The search for an id that no application has, from a number on: how many candidates it takes, the id that it ends
    with, and the number after it. -/
inductive Search (apps : List App) : UInt64 → Nat → String × UInt64 → Prop
  | free {n : UInt64} : findApp? apps (Counter.label "app" n) = none →
      Search apps n 1 (Counter.label "app" n, Counter.next n)
  | taken {n : UInt64} {tries : Nat} {found : String × UInt64} : findApp? apps (Counter.label "app" n) ≠ none →
      Search apps (Counter.next n) tries found → Search apps n (tries + 1) found

theorem findApp?_eq_none_iff {apps : List App} {id : String} : findApp? apps id = none ↔ id ∉ apps.map (·.id) := by
  rw [← isSome_findApp?, Option.not_isSome_iff_eq_none]

/-- A search can end in one way only. -/
theorem Search.unique {apps : List App} {n : UInt64} {tries tries' : Nat} {found found' : String × UInt64}
    (search : Search apps n tries found) (other : Search apps n tries' found') : tries' = tries ∧ found' = found := by
  induction search generalizing tries' with
  | free unused =>
    cases other with
    | free _ => exact ⟨rfl, rfl⟩
    | taken used _ => exact absurd unused used
  | taken used _ ih =>
    cases other with
    | free unused => exact absurd unused used
    | taken _ later =>
      obtain ⟨rfl, rfl⟩ := ih later
      exact ⟨rfl, rfl⟩

/-- A search that ends has found a number that is not behind the counter. -/
theorem Search.hasAppId {tries : Nat} {found : String × UInt64} (search : Search d.apps d.nextApp tries found) :
    d.HasAppId := by
  obtain ⟨k, low, free⟩ : ∃ k, d.nextApp ≤ k ∧ findApp? d.apps (Counter.label "app" k) = none := by
    generalize d.nextApp = n at search
    induction search with
    | @free n unused => exact ⟨n, UInt64.le_refl n, unused⟩
    | @taken n _ _ _ _ ih =>
      obtain ⟨k, low, unused⟩ := ih
      exact ⟨k, UInt64.le_trans (Counter.le_next n) low, unused⟩
  exact ⟨k, low, findApp?_eq_none_iff.mp free⟩

/-- The search ends at the first number that names no application. -/
theorem search_of_least {apps : List App} {n k : UInt64} (low : n ≤ k)
    (free : Counter.label "app" k ∉ apps.map (·.id))
    (taken : ∀ m, n ≤ m → m < k → Counter.label "app" m ∈ apps.map (·.id)) :
    Search apps n (k.toNat - n.toNat + 1) (Counter.label "app" k, Counter.next k) := by
  induction gap : k.toNat - n.toNat generalizing n with
  | zero =>
    have same : n = k := by
      rw [UInt64.le_iff_toNat_le] at low
      exact UInt64.toNat_inj.mp (by omega)
    rw [same]
    exact .free (findApp?_eq_none_iff.mpr free)
  | succ gap' ih =>
    have below : n < k := UInt64.lt_iff_toNat_lt.mpr (by omega)
    have after := Counter.next_toNat (Counter.ne_top_of_lt below)
    have used : findApp? apps (Counter.label "app" n) ≠ none := by
      rw [Ne, findApp?_eq_none_iff, not_not]
      exact taken n (UInt64.le_refl n) below
    refine .taken used (ih (Counter.next_le below) ?_ (by omega))
    intro m later
    exact taken m (UInt64.le_trans (Counter.le_next n) later)

/-- The counter can pass the numbers of all applications before it comes to its end. -/
def HasRoom (d : Desktop α) : Prop := d.nextApp.toNat + d.apps.length < Counter.top.toNat

instance (d : Desktop α) : Decidable d.HasRoom :=
  inferInstanceAs (Decidable (d.nextApp.toNat + d.apps.length < Counter.top.toNat))

/-- So many ids that no application has are made from numbers that the counter comes to before its end. -/
def HasAppIds (d : Desktop α) (count : Nat) : Prop :=
  ∃ names : List String, names.Nodup ∧ count ≤ names.length ∧
    ∀ name ∈ names, name ∉ d.apps.map (·.id) ∧ ∃ k, name = Counter.label "app" k ∧ d.nextApp ≤ k ∧ k < Counter.top

/-- The ids of applications use up at most one number each. -/
theorem hasAppIds_of_le {count : Nat} (room : d.nextApp.toNat + (d.apps.length + count) ≤ Counter.top.toNat) :
    d.HasAppIds count := by
  let ids := d.apps.map (·.id)
  let names := Counter.labels "app" (d.apps.length + count) d.nextApp
  have apart : names.Nodup := Counter.nodup_labels room
  refine ⟨names.filter fun name => name ∉ ids, apart.filter _, ?_, ?_⟩
  · have few : (names.filter fun name => name ∈ ids).length ≤ ids.length := by
      apply (apart.filter _).length_le_of_subset
      intro name member
      exact of_decide_eq_true (List.mem_filter.mp member).2
    have all := List.length_eq_length_filter_add (l := names) fun name => decide (name ∈ ids)
    simp only [names, ids, Counter.length_labels, List.length_map, decide_not] at few all ⊢
    omega
  · intro name member
    obtain ⟨made, unused⟩ := List.mem_filter.mp member
    obtain ⟨k, named, low, high⟩ := (Counter.mem_labels_iff room).mp made
    refine ⟨of_decide_eq_true unused, k, named, UInt64.le_iff_toNat_le.mpr low, ?_⟩
    rw [UInt64.lt_iff_toNat_lt]
    omega

theorem HasRoom.hasAppIds (room : d.HasRoom) : d.HasAppIds 1 := hasAppIds_of_le room

namespace HasAppIds
variable {count : Nat}

theorem mono (left : d.HasAppIds count) {fewer : Nat} (le : fewer ≤ count) : d.HasAppIds fewer := by
  obtain ⟨names, apart, enough, free⟩ := left
  exact ⟨names, apart, le.trans enough, free⟩

/-- The next application gets the first id that no application has, and it is made from a number before the end of
    the counter. -/
theorem exists_nextAppId (left : d.HasAppIds 1) : ∃ k, d.nextApp ≤ k ∧ k < Counter.top ∧
    Counter.label "app" k ∉ d.apps.map (·.id) ∧
    (∀ m, d.nextApp ≤ m → m < k → Counter.label "app" m ∈ d.apps.map (·.id)) ∧
    d.nextAppId = (Counter.label "app" k, Counter.next k) := by
  obtain ⟨names, -, enough, free⟩ := left
  obtain ⟨name, member⟩ := List.exists_mem_of_length_pos enough
  obtain ⟨unused, j, rfl, reached, below⟩ := free name member
  obtain ⟨k, low, free', taken, given⟩ := Desktop.exists_nextAppId ⟨j, reached, unused⟩
  have first : k ≤ j := UInt64.not_lt.mp fun above => unused (taken j reached above)
  exact ⟨k, low, UInt64.lt_of_le_of_lt first below, free', taken, given⟩

theorem hasAppId (left : d.HasAppIds 1) : d.HasAppId := by
  obtain ⟨k, low, _, free, _⟩ := left.exists_nextAppId
  exact ⟨k, low, free⟩

theorem fewerApps (left : d.HasAppIds count) (counter : next.nextApp = d.nextApp)
    (apps : next.apps.map (·.id) ⊆ d.apps.map (·.id)) : next.HasAppIds count := by
  obtain ⟨names, apart, enough, free⟩ := left
  refine ⟨names, apart, enough, ?_⟩
  intro name member
  obtain ⟨unused, numbered⟩ := free name member
  exact ⟨fun used => unused (apps used), counter ▸ numbered⟩

/-- An installation takes one of the ids that are left. -/
theorem addApp [Coordinate α] (left : d.HasAppIds (count + 1)) (new : NewApp) : (d.addApp new).HasAppIds count := by
  obtain ⟨k, low, below, unused, taken, given⟩ := (left.mono (by omega)).exists_nextAppId
  obtain ⟨names, apart, enough, free⟩ := left
  obtain ⟨app, icon, apps, -, named, -⟩ := d.exists_addApp new
  have counter : (d.addApp new).nextApp = Counter.next k := congrArg Prod.snd given
  have assigned : app.id = Counter.label "app" k := named.trans (congrArg Prod.fst given)
  refine ⟨names.erase (Counter.label "app" k), apart.erase _, ?_, ?_⟩
  · have kept : names.length - 1 ≤ (names.erase (Counter.label "app" k)).length := List.le_length_erase
    omega
  · intro name member
    obtain ⟨other, old⟩ := apart.mem_erase_iff.mp member
    obtain ⟨free', j, rfl, reached, early⟩ := free name old
    refine ⟨?_, j, rfl, ?_, early⟩
    · rw [apps, List.map_append, List.mem_append, List.map_singleton, List.mem_singleton, assigned, not_or]
      exact ⟨free', other⟩
    · have first : k ≤ j := UInt64.not_lt.mp fun above => free' (taken j reached above)
      have unlike : k ≠ j := fun same => other (congrArg _ same.symm)
      rw [counter]
      exact Counter.next_le (UInt64.lt_of_le_of_ne first unlike)

end HasAppIds

namespace HasRoom

theorem exists_search (room : d.HasRoom) : ∃ tries ≤ d.apps.length + 1, ∀ t found,
    Search d.apps d.nextApp t found ↔ t = tries ∧ found = d.nextAppId := by
  obtain ⟨k, low, _, free, taken, given⟩ := room.hasAppIds.exists_nextAppId
  have search := search_of_least low free taken
  have few := toNat_le_add_length low taken
  refine ⟨k.toNat - d.nextApp.toNat + 1, by omega, ?_⟩
  intro t found
  rw [given]
  constructor
  · exact search.unique
  · rintro ⟨rfl, rfl⟩
    exact search

theorem app?_nextAppId (room : d.HasRoom) : d.app? d.nextAppId.1 = none := by
  obtain ⟨k, _, _, free, _, given⟩ := room.hasAppIds.exists_nextAppId
  rw [given]
  exact findApp?_eq_none_iff.mpr free

/-- The counter is left past the number of the next id. -/
theorem exists_number (room : d.HasRoom) : ∃ k, d.nextAppId.1 = Counter.label "app" k ∧ k < d.nextAppId.2 := by
  obtain ⟨k, _, below, _, _, given⟩ := room.hasAppIds.exists_nextAppId
  rw [given]
  exact ⟨k, rfl, Counter.lt_next_of_ne_top (Counter.ne_top_of_lt below)⟩

end HasRoom

end Desktop

namespace Scene
variable {α : Type} [Coordinate α] {defaults : Defaults α}

/-- The desktops of a run that an application is installed on, in turn. -/
def installations (defaults : Defaults α) (s : Scene α) : List (UInt64 × Action α) → List (Desktop α)
  | [] => []
  | (now, action) :: rest =>
    let later := (s.step defaults now action).1.installations defaults rest
    match action with
    | .install _ => s.desktop :: later
    | _ => later

theorem installations_of_install (s : Scene α) (now : UInt64) (new : NewApp) (rest : List (UInt64 × Action α)) :
    s.installations defaults ((now, .install new) :: rest) =
      s.desktop :: (s.step defaults now (.install new)).1.installations defaults rest := rfl

theorem installations_of_other (s : Scene α) (now : UInt64) {action : Action α}
    (other : ∀ new, action ≠ .install new) (rest : List (UInt64 × Action α)) :
    s.installations defaults ((now, action) :: rest) =
      (s.step defaults now action).1.installations defaults rest := by
  cases action with
  | install new => exact absurd rfl (other new)
  | _ => rfl

/-- The counter of applications never goes back. -/
theorem nextApp_le_step (s : Scene α) (defaults : Defaults α) (now : UInt64) (action : Action α) :
    s.desktop.nextApp ≤ (s.step defaults now action).1.desktop.nextApp := by
  rcases s.step_catalogue defaults now action with same | ⟨new, rfl, after⟩ | ⟨app, rfl, same⟩ | ⟨snapshot, rfl, after⟩
  · exact UInt64.le_of_eq same.nextApp.symm
  · rw [after]
    exact Desktop.le_freshAppId s.desktop.apps s.desktop.apps.length s.desktop.nextApp
  · exact UInt64.le_of_eq same.nextApp.symm
  · rw [after]
    exact UInt64.le_refl _

/-- A step that installs nothing uses no id up. -/
theorem hasAppIds_step {s : Scene α} {count : Nat} (left : s.desktop.HasAppIds count) (now : UInt64)
    {action : Action α} (other : ∀ new, action ≠ .install new) :
    (s.step defaults now action).1.desktop.HasAppIds count := by
  rcases s.step_catalogue defaults now action with same | ⟨new, installs, _⟩ | ⟨app, rfl, same⟩ | ⟨snapshot, rfl, after⟩
  · exact left.fewerApps same.nextApp (by rw [same.apps]; exact List.Subset.refl _)
  · exact absurd installs (other new)
  · refine left.fewerApps same.nextApp ?_
    rw [same.apps]
    exact (List.filter_sublist.map _).subset
  · rw [after]
    exact left.fewerApps rfl (List.Subset.refl _)

theorem nextApp_le_of_mem_installations {s : Scene α} {moves : List (UInt64 × Action α)} {d : Desktop α}
    (member : d ∈ s.installations defaults moves) : s.desktop.nextApp ≤ d.nextApp := by
  induction moves generalizing s with
  | nil => exact absurd member List.not_mem_nil
  | cons move rest ih =>
    obtain ⟨now, action⟩ := move
    have onwards := s.nextApp_le_step defaults now action
    by_cases installs : ∃ new, action = .install new
    · obtain ⟨new, rfl⟩ := installs
      rw [installations_of_install] at member
      rcases List.mem_cons.mp member with rfl | later
      · exact UInt64.le_refl _
      · exact UInt64.le_trans onwards (ih later)
    · rw [installations_of_other s now (not_exists.mp installs)] at member
      exact UInt64.le_trans onwards (ih member)

/-- When there are ids for all installations of a run at its beginning, there is one for each when it comes. -/
theorem hasAppIds_of_mem_installations {s : Scene α} {moves : List (UInt64 × Action α)}
    (left : s.desktop.HasAppIds (s.installations defaults moves).length) :
    ∀ d ∈ s.installations defaults moves, d.HasAppIds 1 := by
  induction moves generalizing s with
  | nil => exact fun d member => absurd member List.not_mem_nil
  | cons move rest ih =>
    obtain ⟨now, action⟩ := move
    by_cases installs : ∃ new, action = .install new
    · obtain ⟨new, rfl⟩ := installs
      rw [installations_of_install] at left ⊢
      intro d member
      rcases List.mem_cons.mp member with rfl | later
      · exact left.mono (by simp)
      · exact ih (left.addApp new) d later
    · rw [installations_of_other s now (not_exists.mp installs)] at left ⊢
      exact ih (hasAppIds_step left now (not_exists.mp installs))

/-- The ids that a run gives to new applications, in turn. -/
def givenAppIds (defaults : Defaults α) (s : Scene α) (moves : List (UInt64 × Action α)) : List String :=
  (s.installations defaults moves).map fun d => d.nextAppId.1

/-- Each installation takes the counter past the number of its id, unless that is the largest one, and the ids of
    later installations are made from numbers that are not behind the counter. -/
theorem pairwise_givenAppIds {s : Scene α} {moves : List (UInt64 × Action α)}
    (left : ∀ d ∈ s.installations defaults moves, d.HasAppId) :
    (s.givenAppIds defaults moves).Pairwise fun earlier later =>
      earlier = later → earlier = Counter.label "app" Counter.top := by
  unfold givenAppIds
  induction moves generalizing s with
  | nil => exact .nil
  | cons move rest ih =>
    obtain ⟨now, action⟩ := move
    by_cases installs : ∃ new, action = .install new
    · obtain ⟨new, rfl⟩ := installs
      rw [installations_of_install] at left ⊢
      obtain ⟨here, later⟩ := List.forall_mem_cons.mp left
      refine List.pairwise_cons.mpr ⟨?_, ih later⟩
      intro id among (same : s.desktop.nextAppId.1 = id)
      show s.desktop.nextAppId.1 = Counter.label "app" Counter.top
      obtain ⟨d, member, rfl⟩ := List.mem_map.mp among
      obtain ⟨k, _, _, _, given⟩ := Desktop.exists_nextAppId here
      obtain ⟨k', low', _, _, given'⟩ := Desktop.exists_nextAppId (later d member)
      have passed : Counter.next k ≤ d.nextApp := by
        have counter : (s.step defaults now (.install new)).1.desktop.nextApp = Counter.next k := congrArg Prod.snd given
        exact counter ▸ nextApp_le_of_mem_installations member
      have number : k = k' := by
        rw [given, given'] at same
        exact Counter.label_inj same
      have last : k = Counter.top := by
        by_contra below
        have ahead : Counter.next k ≤ k := UInt64.le_trans passed (number ▸ low')
        exact UInt64.not_lt.mpr ahead (Counter.lt_next_of_ne_top below)
      rw [given, last]
    · rw [installations_of_other s now (not_exists.mp installs)] at left ⊢
      exact ih left

/-- An id comes again only when the counter is at its end. -/
theorem nodup_givenAppIds {s : Scene α} {moves : List (UInt64 × Action α)}
    (left : ∀ d ∈ s.installations defaults moves, d.HasAppIds 1) : (s.givenAppIds defaults moves).Nodup := by
  have apart := pairwise_givenAppIds fun d member => (left d member).hasAppId
  refine apart.imp_of_mem ?_
  intro earlier later among _ onlyLast same
  obtain ⟨d, member, rfl⟩ := List.mem_map.mp among
  obtain ⟨k, _, below, _, _, given⟩ := (left d member).exists_nextAppId
  have last := onlyLast same
  rw [given] at last
  exact Counter.ne_top_of_lt below (Counter.label_inj last)

/-- Where the number of the next id and the number of applications are below the largest word together, whatever ids
    the applications have, the search for an id ends, after one candidate more than there are applications at most. It
    ends with an id that no application has, and with the counter past its number; and these are what an installation
    gives the new application and leaves the counter at. So in a run of any actions no id is given twice, when this is
    so at each installation, or at the beginning for as many more applications as are installed. In any run in which
    the searches end at all, only the id of the largest number can be given twice. -/
theorem appIds_assigned :
    (∀ d : Desktop α, d.HasRoom →
      (∃ tries ≤ d.apps.length + 1, ∀ t found,
        Desktop.Search d.apps d.nextApp t found ↔ t = tries ∧ found = d.nextAppId) ∧
      d.app? d.nextAppId.1 = none ∧
      (∃ k, d.nextAppId.1 = Counter.label "app" k ∧ k < d.nextAppId.2) ∧
      ∀ new, ∃ app, (d.addApp new).apps = d.apps ++ [app] ∧ app.id = d.nextAppId.1 ∧
        (d.addApp new).nextApp = d.nextAppId.2) ∧
    ∀ (defaults : Defaults α) (s : Scene α) (moves : List (UInt64 × Action α)),
      ((∀ d ∈ s.installations defaults moves, d.HasRoom) ∨
          s.desktop.nextApp.toNat + (s.desktop.apps.length + (s.installations defaults moves).length) ≤
            Counter.top.toNat →
        (s.givenAppIds defaults moves).Nodup) ∧
      ((∀ d ∈ s.installations defaults moves, ∃ tries found, Desktop.Search d.apps d.nextApp tries found) →
        (s.givenAppIds defaults moves).Pairwise fun earlier later =>
          earlier = later → earlier = Counter.label "app" Counter.top) := by
  refine ⟨?_, ?_⟩
  · intro d room
    refine ⟨room.exists_search, room.app?_nextAppId, room.exists_number, ?_⟩
    intro new
    obtain ⟨app, icon, apps, _, named, _⟩ := d.exists_addApp new
    exact ⟨app, apps, named, rfl⟩
  · intro defaults s moves
    refine ⟨?_, ?_⟩
    · rintro (each | all)
      · exact nodup_givenAppIds fun d member => (each d member).hasAppIds
      · exact nodup_givenAppIds (hasAppIds_of_mem_installations (Desktop.hasAppIds_of_le all))
    · intro ends
      refine pairwise_givenAppIds fun d member => ?_
      obtain ⟨tries, found, search⟩ := ends d member
      exact search.hasAppId

/-- Some of the ids that the search comes to were chosen for applications of the catalogue, and an id that an
    uninstalled application had does not come back. -/
theorem appIds_assigned_chosen :
    let chosen (id : String) : App := ⟨id, "Notes", .custom, "★", "Store app", "Notes.fxo", true, false, true⟩
    let notes : NewApp := ⟨"Notes", .custom, "★", "Store app", "Notes.fxo", false⟩
    let d : Desktop Float := { Desktop.empty with apps := ["app-1", "files", "app-2", "app-4"].map chosen }
    let moves := [(1, .install notes), (2, .install notes), (3, .uninstall "app-3"), (4, .install notes)]
    let s := Scene.mk d .none
    d.HasRoom ∧ d.nextAppId = ("app-3", 4) ∧ d.app? d.nextAppId.1 = none ∧
      (∀ e ∈ s.installations Config.standard.windows moves, e.HasRoom) ∧
      s.givenAppIds Config.standard.windows moves = ["app-3", "app-5", "app-6"] ∧
      (s.givenAppIds Config.standard.windows moves).Nodup := by
  intro chosen notes d moves s
  have room : d.HasRoom := by decide +kernel
  have rooms : ∀ e ∈ s.installations Config.standard.windows moves, e.HasRoom := by decide +kernel
  obtain ⟨assigned, runs⟩ := appIds_assigned (α := Float)
  obtain ⟨-, unused, -, -⟩ := assigned d room
  exact ⟨room, by decide +kernel, unused, rooms, by decide +kernel, (runs _ _ _).1 (.inl rooms)⟩

/-- A run that begins with room for one application and installs three: each search ends with its first candidate,
    but the counter stays at the largest word, and the id of an uninstalled application comes back. -/
theorem appIds_repeated :
    let notes : NewApp := ⟨"Notes", .custom, "★", "Store app", "Notes.fxo", false⟩
    let d : Desktop Float := { Desktop.empty with nextApp := 18446744073709551614 }
    let moves := [(1, .install notes), (2, .install notes), (3, .uninstall "app-18446744073709551615"),
      (4, .install notes)]
    let s := Scene.mk d .none
    d.HasRoom ∧
      (∀ e ∈ s.installations Config.standard.windows moves, Desktop.Search e.apps e.nextApp 1 e.nextAppId) ∧
      s.givenAppIds Config.standard.windows moves =
        ["app-18446744073709551614", "app-18446744073709551615", "app-18446744073709551615"] ∧
      ¬ (s.givenAppIds Config.standard.windows moves).Nodup := by
  intro notes d moves s
  have given : s.givenAppIds Config.standard.windows moves =
      ["app-18446744073709551614", "app-18446744073709551615", "app-18446744073709551615"] := by
    decide +kernel
  have atOnce : ∀ e ∈ s.installations Config.standard.windows moves,
      findApp? e.apps (Counter.label "app" e.nextApp) = none ∧
        e.nextAppId = (Counter.label "app" e.nextApp, Counter.next e.nextApp) := by
    decide +kernel
  refine ⟨by decide +kernel, ?_, given, by simp [given]⟩
  intro e member
  obtain ⟨unused, found⟩ := atOnce e member
  rw [found]
  exact .free unused

end Scene

end DesktopShell
