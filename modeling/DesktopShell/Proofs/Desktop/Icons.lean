import DesktopShell.Proofs.Desktop.Runs
import DesktopShell.Proofs.Geometry.Extent
import DesktopShell.Proofs.Text
import Mathlib.Data.List.Perm.Subperm
import Mathlib.Data.List.Range

/-!
# Icons

Icons are saved with the layout, the counter that numbers them is not. A run in which
the counter has passed the numbers of all icons that are taken over keeps its icons
apart, and of an icon that it has not passed it is known which installation gives
another icon the same id (`Reached.icons_apart`).

An icon is placed below all others, so that with exact numbers the icons stand one below
the other in the order of their list, whatever is removed. The rank of an icon is the
number of icons at the time: it is above all others only while the ranks are all numbers
from zero on, and an installation after a removal in between gives a rank that another
icon may have (`Reached.icons_ascend`).
-/
namespace DesktopShell

theorem Placement.ids_column {α : Type} [Coordinate α] (apps : List String) (order next : UInt64) :
    ((column order next apps : List (Icon α) × UInt64).1.map (·.id)) = Counter.labels "icon" apps.length next ∧
      (column order next apps : List (Icon α) × UInt64).2 = Counter.next^[apps.length] next := by
  induction apps generalizing order next with
  | nil => exact ⟨rfl, rfl⟩
  | cons app rest ih =>
    obtain ⟨ids, after⟩ := ih (order + 1) (Counter.next next)
    exact ⟨congrArg (Counter.label "icon" next :: ·) ids, after⟩

namespace Desktop
variable {α : Type}

theorem ids_addApp [Coordinate α] (d : Desktop α) (new : NewApp) :
    (d.addApp new).icons.map (·.id) = d.icons.map (·.id) ++ [Counter.label "icon" d.nextIcon] := List.map_append

/-- The icons have ids of their own, and the counter has passed all numbers that these are made from. -/
def IconsIssued (d : Desktop α) : Prop := Counter.Issued "icon" d.nextIcon (d.icons.map (·.id))

namespace IconsIssued
variable {d next : Desktop α}

theorem sameCatalogue (issued : d.IconsIssued) (same : d.SameCatalogue next) : next.IconsIssued := by
  unfold IconsIssued at *
  rw [same.icons, same.nextIcon]
  exact issued

theorem removeApp (issued : d.IconsIssued) (app : String) : (d.removeApp app).IconsIssued :=
  Counter.Issued.sublist issued (List.filter_sublist.map _)

theorem addApp [Coordinate α] (issued : d.IconsIssued) {new : NewApp}
    (room : (d.addApp new).nextIcon < Counter.top) : (d.addApp new).IconsIssued := by
  unfold IconsIssued
  rw [ids_addApp]
  exact Counter.Issued.push issued (Counter.ne_top_of_next room)

end IconsIssued

/-- Installations give icons the numbers in turn. -/
theorem ids_foldl_addApp [Coordinate α] (d : Desktop α) (news : List NewApp) :
    (news.foldl addApp d).icons.map (·.id) =
      d.icons.map (·.id) ++ Counter.labels "icon" news.length d.nextIcon := by
  induction news generalizing d with
  | nil => simp [Counter.labels]
  | cons new rest ih =>
    have counter : (d.addApp new).nextIcon = Counter.next d.nextIcon := rfl
    rw [List.foldl_cons, ih, ids_addApp, counter, List.append_assoc]
    rfl

/-- After installations the icons are apart just when no icon that was there before has one of the numbers
    that they used. -/
theorem nodup_foldl_addApp_iff [Coordinate α] {d : Desktop α} (apart : (d.icons.map (·.id)).Nodup)
    {news : List NewApp} (room : d.nextIcon.toNat + news.length ≤ Counter.top.toNat) :
    ((news.foldl addApp d).icons.map (·.id)).Nodup ↔
      ∀ icon ∈ d.icons, ∀ k, icon.id = Counter.label "icon" k →
        k < d.nextIcon ∨ d.nextIcon.toNat + news.length ≤ k.toNat := by
  rw [ids_foldl_addApp, List.nodup_append]
  constructor
  · rintro ⟨_, _, unlike⟩ icon member k named
    have unused : Counter.label "icon" k ∉ Counter.labels "icon" news.length d.nextIcon :=
      fun used => unlike icon.id (List.mem_map_of_mem member) _ used named
    rw [Counter.label_mem_labels_iff room] at unused
    rw [UInt64.lt_iff_toNat_lt]
    omega
  · intro passed
    refine ⟨apart, Counter.nodup_labels room, ?_⟩
    rintro id used _ new rfl
    obtain ⟨icon, member, rfl⟩ := List.mem_map.mp used
    obtain ⟨k, named, low, high⟩ := (Counter.mem_labels_iff room).mp new
    rcases passed icon member k named with before | after
    · rw [UInt64.lt_iff_toNat_lt] at before
      omega
    · omega

end Desktop

namespace Scene
variable {α : Type} [Coordinate α] {config : Config α} {s : Scene α}

/-- The counter that numbers icons has not come to its end. -/
def CountsIcons (s : Scene α) : Prop := s.desktop.nextIcon < Counter.top

instance (s : Scene α) : Decidable s.CountsIcons := inferInstanceAs (Decidable (_ < _))

/-- When the action takes over a snapshot, the icons in it have ids of their own, and the desktop's
    counter has passed all numbers that these are made from. -/
def PassesIcons (s : Scene α) : Action α → Prop
  | .restore snapshot => Counter.Issued "icon" s.desktop.nextIcon (snapshot.icons.map (·.id))
  | _ => True

theorem start_icons (config : Config α) : ∃ count,
    (start config).desktop.icons.map (·.id) = Counter.labels "icon" count 1 ∧
      (start config).desktop.nextIcon = Counter.next^[count] 1 :=
  ⟨_, Placement.ids_column _ 0 1⟩

theorem start_iconsIssued (room : (start config).CountsIcons) : (start config).desktop.IconsIssued := by
  obtain ⟨count, ids, after⟩ := start_icons config
  unfold CountsIcons at room
  unfold Desktop.IconsIssued
  rw [after] at room
  rw [ids, after]
  exact .of_labels room

theorem step_iconsIssued {defaults : Defaults α} {now : UInt64} {action : Action α} (issued : s.desktop.IconsIssued)
    (passes : s.PassesIcons action) (room : (s.step defaults now action).1.CountsIcons) :
    (s.step defaults now action).1.desktop.IconsIssued := by
  rcases s.step_catalogue defaults now action with same | ⟨new, rfl, _⟩ | ⟨app, _, same⟩ | ⟨snapshot, rfl, _⟩
  · exact issued.sameCatalogue same
  · exact issued.addApp room
  · exact (issued.removeApp app).sameCatalogue same
  · exact passes

theorem Reached.iconsIssued (run : s.Reached config CountsIcons PassesIcons) : s.desktop.IconsIssued := by
  induction run with
  | start room => exact start_iconsIssued room
  | step now action _ passes room ih => exact step_iconsIssued ih passes room

/-- Icons are apart, and the next one gets an id of its own, in every run that takes over icons only when its
    counter has passed their numbers; icons that such a run has saved are apart already. This is what it
    takes: when a desktop takes over what another run with its configuration has saved and then applications
    are installed, the icons are apart just when no saved one has a number that the installations used. -/
theorem Reached.icons_apart (run : s.Reached config CountsIcons PassesIcons) :
    (s.desktop.icons.map (·.id)).Nodup ∧
      Counter.label "icon" s.desktop.nextIcon ∉ s.desktop.icons.map (·.id) ∧
      ∀ saved : Scene α, saved.Reached config CountsIcons PassesIcons →
        (s.PassesIcons (.restore saved.desktop.snapshot) ↔
          ∀ icon ∈ saved.desktop.icons, ∀ k, icon.id = Counter.label "icon" k → k < s.desktop.nextIcon) ∧
        ∀ news : List NewApp, s.desktop.nextIcon.toNat + news.length ≤ Counter.top.toNat →
          (((news.foldl Desktop.addApp (Restore.into s.desktop saved.desktop.snapshot)).icons.map (·.id)).Nodup ↔
            ∀ icon ∈ saved.desktop.icons, ∀ k, icon.id = Counter.label "icon" k →
              k < s.desktop.nextIcon ∨ s.desktop.nextIcon.toNat + news.length ≤ k.toNat) := by
  have issued := run.iconsIssued
  refine ⟨issued.apart, issued.fresh, ?_⟩
  intro saved savedRun
  have apart : (saved.desktop.icons.map (·.id)).Nodup := savedRun.iconsIssued.apart
  refine ⟨⟨?_, ?_⟩, ?_⟩
  · intro passes icon member k named
    exact passes.behind k (List.mem_map.mpr ⟨icon, member, named⟩)
  · intro behind
    refine ⟨apart, fun k used => ?_⟩
    obtain ⟨icon, member, named⟩ := List.mem_map.mp used
    exact behind icon member k named
  · intro news room
    have taken : ((Restore.into s.desktop saved.desktop.snapshot).icons.map (·.id)).Nodup := apart
    exact Desktop.nodup_foldl_addApp_iff taken room

/-- A desktop takes over the icons of an earlier run after it has numbered as many of its own, and gives
    another one a number after them. -/
theorem icons_apart_restarted :
    let standard := Config.standard
    let notes : NewApp := ⟨"Notes", .custom, "★", "Store app", "Notes.fxo", false⟩
    let saved := ((start standard).step standard.windows 1 (.install notes)).1
    let later := ((start standard).step standard.windows 2 (.install { notes with name := "Chess" })).1
    let resumed := (later.step standard.windows 3 (.restore saved.desktop.snapshot)).1
    let s := (resumed.step standard.windows 4 (.install notes)).1
    s.desktop.icons.map (·.id) = ["icon-1", "icon-2", "icon-3", "icon-4", "icon-5", "icon-6", "icon-7"] ∧
      (s.desktop.icons.map (·.id)).Nodup ∧
      Counter.label "icon" s.desktop.nextIcon ∉ s.desktop.icons.map (·.id) := by
  intro standard notes saved later resumed s
  have atStart : (start standard).Reached standard CountsIcons PassesIcons := .start (by decide +kernel)
  have atSaved : saved.Reached standard CountsIcons PassesIcons := .step 1 _ atStart trivial (by decide +kernel)
  have atLater : later.Reached standard CountsIcons PassesIcons := .step 2 _ atStart trivial (by decide +kernel)
  have level : saved.desktop.nextIcon = later.desktop.nextIcon := by decide +kernel
  have passes : later.PassesIcons (.restore saved.desktop.snapshot) := by
    unfold PassesIcons
    rw [← level]
    exact atSaved.iconsIssued
  have atResumed : resumed.Reached standard CountsIcons PassesIcons := .step 3 _ atLater passes (by decide +kernel)
  have atEnd : s.Reached standard CountsIcons PassesIcons := .step 4 _ atResumed trivial (by decide +kernel)
  obtain ⟨apart, fresh, _⟩ := Reached.icons_apart atEnd
  exact ⟨by decide +kernel, apart, fresh⟩

/-- A desktop that has just started takes over an icon that an earlier run has added, and gives another one
    the same id. -/
theorem icons_apart_shared :
    let standard := Config.standard
    let notes : NewApp := ⟨"Notes", .custom, "★", "Store app", "Notes.fxo", false⟩
    let saved := ((start standard).step standard.windows 1 (.install notes)).1
    let resumed := ((start standard).step standard.windows 2 (.restore saved.desktop.snapshot)).1
    let s := (resumed.step standard.windows 3 (.install { notes with name := "Chess" })).1
    standard.fault?.isNone = true ∧ Lineage (fun _ => True) Eq standard s ∧
      s.desktop.icons.map (·.id) = ["icon-1", "icon-2", "icon-3", "icon-4", "icon-5", "icon-6", "icon-6"] ∧
      ¬ (s.desktop.icons.map (·.id)).Nodup := by
  intro standard notes saved resumed s
  have atSaved : Lineage (fun _ => True) Eq standard saved := .act 1 _ (.start standard trivial) rfl trivial
  have atResumed : Lineage (fun _ => True) Eq standard resumed :=
    .restart 2 (.start standard trivial) atSaved rfl trivial
  exact ⟨by decide +kernel, .act 3 _ atResumed rfl trivial, by decide +kernel, by decide +kernel⟩

end Scene

namespace Placement
variable {α : Type} [Coordinate α]

theorem orders_column (apps : List String) (order next : UInt64) :
    (column order next apps : List (Icon α) × UInt64).1.map (·.order) =
      (List.range apps.length).map fun i => order + UInt64.ofNat i := by
  induction apps generalizing order next with
  | nil => rfl
  | cons app rest ih =>
    have later (i : Nat) : order + 1 + UInt64.ofNat i = order + UInt64.ofNat (i + 1) := by
      rw [UInt64.ofNat_add, UInt64.add_assoc, UInt64.add_comm 1]
      rfl
    rw [column, List.map_cons, ih, List.length_cons, List.range_succ_eq_map, List.map_cons, List.map_map]
    simp [later, Function.comp_def]

/-- An icon is placed by its rank when the desktop starts. -/
theorem place_column (apps : List String) (order next : UInt64) :
    ∀ icon ∈ (column order next apps : List (Icon α) × UInt64).1, icon.y = columnY icon.order := by
  induction apps generalizing order next with
  | nil => simp [column]
  | cons app rest ih =>
    intro icon member
    rcases List.mem_cons.mp member with rfl | later
    · rfl
    · exact ih _ _ icon later

theorem columnY_lt {low high : UInt64} (less : low < high) : (columnY low : ℚ) < columnY high := by
  have counts : (low.toNat : ℚ) < high.toNat := by exact_mod_cast less
  simp only [columnY, Coordinate.ofCount, Nat.cast_ofNat]
  linarith

private theorem le_foldl_larger (icons : List (Icon ℚ)) (top : ℚ) :
    top ≤ icons.foldl (fun y icon => Coordinate.larger y icon.y) top ∧
      ∀ icon ∈ icons, icon.y ≤ icons.foldl (fun y icon => Coordinate.larger y icon.y) top := by
  induction icons generalizing top with
  | nil => simp
  | cons first rest ih =>
    obtain ⟨start, others⟩ := ih (Coordinate.larger top first.y)
    refine ⟨(le_max_left top first.y).trans start, ?_⟩
    intro icon member
    rcases List.mem_cons.mp member with rfl | later
    · exact (le_max_right top icon.y).trans start
    · exact others icon later

/-- A new icon is below every other. -/
theorem lt_below {icons : List (Icon ℚ)} {icon : Icon ℚ} (member : icon ∈ icons) (next : UInt64) (app : String) :
    icon.y < (below icons next app).y := by
  have above : icon.y ≤ lowest icons := (le_foldl_larger icons _).2 icon member
  simp only [below, Coordinate.ofCount, Nat.cast_ofNat]
  linarith

end Placement

namespace Desktop
variable {α : Type} {d next : Desktop α}

/-- Every icon has a rank above the ranks of the icons before it. -/
def RanksAscend (d : Desktop α) : Prop := (d.icons.map (·.order)).Pairwise (· < ·)

/-- The ranks are the numbers from zero on, as many as there are icons. -/
def Gapless (d : Desktop α) : Prop := d.icons.map (·.order.toNat) = List.range d.icons.length

/-- Every icon is below the icons before it. -/
def PlacesDescend (d : Desktop ℚ) : Prop := (d.icons.map (·.y)).Pairwise (· < ·)

instance : Decidable d.RanksAscend := inferInstanceAs (Decidable (List.Pairwise _ _))

instance : Decidable d.Gapless := inferInstanceAs (Decidable (_ = _))

theorem ranksAscend_iff : d.RanksAscend ↔ (d.icons.map (·.order.toNat)).Pairwise (· < ·) := by
  simp only [RanksAscend, List.pairwise_map, UInt64.lt_iff_toNat_lt]

theorem Gapless.ranksAscend (gapless : d.Gapless) : d.RanksAscend := by
  rw [ranksAscend_iff, gapless]
  exact List.pairwise_lt_range

/-- Ascending ranks have no gap exactly if none of them reaches the number of icons. -/
theorem RanksAscend.gapless_iff (ascend : d.RanksAscend) :
    d.Gapless ↔ ∀ icon ∈ d.icons, icon.order.toNat < d.icons.length := by
  constructor
  · intro gapless icon member
    have rank : icon.order.toNat ∈ d.icons.map (·.order.toNat) := List.mem_map_of_mem member
    rw [gapless] at rank
    exact List.mem_range.mp rank
  · intro low
    rw [ranksAscend_iff] at ascend
    have distinct : (d.icons.map (·.order.toNat)).Nodup := ascend.imp Nat.ne_of_lt
    have within : d.icons.map (·.order.toNat) ⊆ List.range d.icons.length := by
      intro rank listed
      obtain ⟨icon, member, rfl⟩ := List.mem_map.mp listed
      exact List.mem_range.mpr (low icon member)
    have all : (d.icons.map (·.order.toNat)).Perm (List.range d.icons.length) :=
      (List.subperm_of_subset distinct within).perm_of_length_le (by simp)
    exact all.eq_of_pairwise (fun _ _ _ _ less more => absurd less (Nat.lt_asymm more)) ascend List.pairwise_lt_range

theorem icons_addApp [Coordinate α] (d : Desktop α) (new : NewApp) :
    (d.addApp new).icons = d.icons ++ [Placement.below d.icons d.nextIcon d.nextAppId.1] := rfl

/-- An icon is added with the number of the icons before it as its rank. -/
theorem ranks_addApp [Coordinate α] (d : Desktop α) (new : NewApp) (fit : d.icons.length < UInt64.size) :
    (d.addApp new).icons.map (·.order.toNat) = d.icons.map (·.order.toNat) ++ [d.icons.length] := by
  rw [icons_addApp, List.map_append, List.map_singleton, Placement.below, UInt64.toNat_ofNat_of_lt' fit]

theorem Gapless.addApp [Coordinate α] (gapless : d.Gapless) (new : NewApp) (fit : d.icons.length < UInt64.size) :
    (d.addApp new).Gapless := by
  rw [Gapless, ranks_addApp d new fit, gapless, icons_addApp, List.length_append, List.length_singleton,
    List.range_succ]

/-- An installation keeps the ranks ascending exactly if there is no gap in them. -/
theorem RanksAscend.addApp_iff [Coordinate α] (ascend : d.RanksAscend) {new : NewApp}
    (fit : d.icons.length < UInt64.size) : (d.addApp new).RanksAscend ↔ d.Gapless := by
  constructor
  · intro ascends
    rw [ranksAscend_iff, ranks_addApp d new fit, List.pairwise_append] at ascends
    rw [ascend.gapless_iff]
    intro icon member
    exact ascends.2.2 _ (List.mem_map_of_mem member) _ (by simp)
  · intro gapless
    exact (gapless.addApp new fit).ranksAscend

theorem PlacesDescend.addApp {d : Desktop ℚ} (descend : d.PlacesDescend) (new : NewApp) :
    (d.addApp new).PlacesDescend := by
  rw [PlacesDescend, icons_addApp, List.map_append, List.map_singleton, List.pairwise_append]
  refine ⟨descend, List.pairwise_singleton _ _, ?_⟩
  intro place listed lowest only
  obtain ⟨icon, member, rfl⟩ := List.mem_map.mp listed
  rw [List.mem_singleton.mp only]
  exact Placement.lt_below member _ _

theorem RanksAscend.removeApp (ascend : d.RanksAscend) (app : String) : (d.removeApp app).RanksAscend :=
  ascend.sublist (List.filter_sublist.map _)

theorem PlacesDescend.removeApp {d : Desktop ℚ} (descend : d.PlacesDescend) (app : String) :
    (d.removeApp app).PlacesDescend :=
  descend.sublist (List.filter_sublist.map _)

end Desktop

namespace Scene
variable {α : Type} [Coordinate α]

/-- A machine word can tell how many icons there are. -/
def CountableIcons (s : Scene α) : Prop := s.desktop.icons.length ≤ UInt64.size

instance (s : Scene α) : Decidable s.CountableIcons := inferInstanceAs (Decidable (_ ≤ _))

/-- No snapshot is taken over, and an application is installed only while the ranks have no gap. -/
def FillsRanks (s : Scene α) : Action α → Prop
  | .restore _ => False
  | .install _ => s.desktop.Gapless
  | _ => True

theorem start_gapless {config : Config α} (countable : (start config).CountableIcons) :
    (start config).desktop.Gapless := by
  have ranks : ((start config).desktop.icons.map (·.order)) = (List.range _).map fun i => 0 + UInt64.ofNat i :=
    Placement.orders_column _ 0 1
  have count := congrArg List.length ranks
  rw [List.length_map, List.length_map, List.length_range] at count
  rw [← count] at ranks
  have words := congrArg (List.map UInt64.toNat) ranks
  rw [List.map_map, List.map_map] at words
  have whole : ∀ i ∈ List.range (start config).desktop.icons.length, (0 + UInt64.ofNat i).toNat = i := by
    intro i inside
    rw [UInt64.zero_add, UInt64.toNat_ofNat_of_lt' ((List.mem_range.mp inside).trans_le countable)]
  exact words.trans ((List.map_congr_left whole).trans (List.map_id _))

theorem start_placesDescend {config : Config ℚ} (countable : (start config).CountableIcons) :
    (start config).desktop.PlacesDescend := by
  have ascend := (start_gapless countable).ranksAscend
  have placed : ∀ icon ∈ (start config).desktop.icons, icon.y = Placement.columnY icon.order :=
    Placement.place_column _ 0 1
  rw [Desktop.RanksAscend, List.pairwise_map] at ascend
  rw [Desktop.PlacesDescend, List.pairwise_map]
  refine ascend.imp_of_mem ?_
  intro first second member member' less
  rw [placed first member, placed second member']
  exact Placement.columnY_lt less

/-- A step that takes over no snapshot keeps ascending ranks so, an installation exactly if there is no gap in
    them. -/
theorem step_ranksAscend_iff {defaults : Defaults α} {now : UInt64} {s : Scene α} {action : Action α}
    (plain : action.isRestore = false) (countable : (s.step defaults now action).1.CountableIcons)
    (ascend : s.desktop.RanksAscend) :
    (s.step defaults now action).1.desktop.RanksAscend ↔ ∀ new, action = .install new → s.desktop.Gapless := by
  by_cases installs : ∃ new, action = .install new
  · obtain ⟨new, rfl⟩ := installs
    have fit : s.desktop.icons.length < UInt64.size := by
      have count : (s.desktop.addApp new).icons.length ≤ UInt64.size := countable
      rwa [Desktop.icons_addApp, List.length_append, List.length_singleton] at count
    have kept : (s.desktop.addApp new).RanksAscend ↔ s.desktop.Gapless := ascend.addApp_iff fit
    exact kept.trans ⟨fun gapless _ _ => gapless, fun gapless => gapless new rfl⟩
  · refine iff_of_true ?_ fun new same => absurd ⟨new, same⟩ installs
    rcases s.step_catalogue defaults now action with same | ⟨new, rfl, _⟩ | ⟨app, rfl, same⟩ | ⟨snapshot, rfl, _⟩
    · rw [Desktop.RanksAscend, same.icons]
      exact ascend
    · exact absurd ⟨new, rfl⟩ installs
    · rw [Desktop.RanksAscend, same.icons]
      exact ascend.removeApp app
    · cases plain

theorem step_placesDescend {defaults : Defaults ℚ} {now : UInt64} {s : Scene ℚ} {action : Action ℚ}
    (plain : action.isRestore = false) (descend : s.desktop.PlacesDescend) :
    (s.step defaults now action).1.desktop.PlacesDescend := by
  rcases s.step_catalogue defaults now action with same | ⟨new, rfl, after⟩ | ⟨app, rfl, same⟩ | ⟨snapshot, rfl, _⟩
  · rw [Desktop.PlacesDescend, same.icons]
    exact descend
  · rw [after]
    exact descend.addApp new
  · rw [Desktop.PlacesDescend, same.icons]
    exact descend.removeApp app
  · cases plain

theorem Reached.placesDescend {config : Config ℚ} {s : Scene ℚ}
    (run : s.Reached config CountableIcons fun _ action => action.isRestore = false) : s.desktop.PlacesDescend := by
  induction run with
  | start countable => exact start_placesDescend countable
  | step now action _ plain _ ih => exact step_placesDescend plain ih

theorem Reached.ranksAscend {config : Config α} {s : Scene α} (run : s.Reached config CountableIcons FillsRanks) :
    s.desktop.RanksAscend := by
  induction run with
  | start countable => exact (start_gapless countable).ranksAscend
  | step now action _ fills countable ih =>
    cases action with
    | restore snapshot => exact absurd fills id
    | install new =>
      refine (step_ranksAscend_iff rfl countable ih).mpr ?_
      exact fun _ _ => fills
    | _ => exact (step_ranksAscend_iff rfl countable ih).mpr (by simp)

/-- In every run that takes over no snapshot the icons stand one below the other in the order of their list, with exact
    numbers, so that no two have one place. Their ranks ascend, so that no two have one rank, as long as applications
    are installed only while the ranks have no gap, and this is what it takes: of all steps from ascending ranks only
    an installation while there is a gap leaves others. -/
theorem Reached.icons_ascend {config : Config ℚ} {s : Scene ℚ}
    (run : s.Reached config CountableIcons fun _ action => action.isRestore = false) :
    s.desktop.PlacesDescend ∧ (s.Reached config CountableIcons FillsRanks → s.desktop.RanksAscend) ∧
      ∀ now action, action.isRestore = false → (s.step config.windows now action).1.CountableIcons →
        s.desktop.RanksAscend →
        ((s.step config.windows now action).1.desktop.RanksAscend ↔
          ∀ new, action = .install new → s.desktop.Gapless) :=
  ⟨run.placesDescend, Reached.ranksAscend, fun _ _ => step_ranksAscend_iff⟩

/-- An application is installed after the lowest icon has been removed, and another one after the first icon has been
    removed: the first gets the rank of the removed icon, and the other one that of the icon before it. -/
theorem icons_ascend_removed :
    let precise : Config ℚ := ⟨configVersion, ⟨400, 300, 400, 300, 100, 100, 50, 30⟩, none, standardApps⟩
    let notes : NewApp := ⟨"Notes", .custom, "★", "Store app", "Notes.fxo", false⟩
    let removed := ((start precise).step precise.windows 1 (.uninstall "web-store")).1
    let full := (removed.step precise.windows 2 (.install notes)).1
    let holed := (full.step precise.windows 3 (.uninstall "terminal")).1
    full.desktop.icons.map (·.y) = [20, 140, 260, 380, 500] ∧ full.desktop.PlacesDescend ∧
      full.desktop.RanksAscend ∧ ¬ (holed.step precise.windows 4 (.install notes)).1.desktop.RanksAscend := by
  intro precise notes removed full holed
  have atStart : (start precise).Reached precise CountableIcons FillsRanks := .start (by decide +kernel)
  have atRemoved : removed.Reached precise CountableIcons FillsRanks := .step 1 _ atStart trivial (by decide +kernel)
  have gapless : removed.desktop.Gapless := by decide +kernel
  have atFull : full.Reached precise CountableIcons FillsRanks := .step 2 _ atRemoved gapless (by decide +kernel)
  have atHoled : holed.Reached precise CountableIcons FillsRanks := .step 3 _ atFull trivial (by decide +kernel)
  have plain : ∀ (s : Scene ℚ) action, s.FillsRanks action → action.isRestore = false := by
    intro s action fills
    cases action <;> first | rfl | exact absurd fills id
  obtain ⟨descend, ascend, _⟩ := Reached.icons_ascend (atFull.mono plain)
  obtain ⟨_, ascendHoled, next⟩ := Reached.icons_ascend (atHoled.mono plain)
  refine ⟨by decide +kernel, descend, ascend atFull, ?_⟩
  rw [next 4 (.install notes) rfl (by decide +kernel) (ascendHoled atHoled)]
  exact fun gapless => absurd (gapless notes rfl) (by decide +kernel)

/-- After the first of five icons has been removed, the next one gets the rank of the last. -/
theorem icons_ascend_repeated :
    let standard := Config.standard
    let notes : NewApp := ⟨"Notes", .custom, "★", "Store app", "Notes.fxo", false⟩
    let holed := ((start standard).step standard.windows 1 (.uninstall "terminal")).1
    let s := (holed.step standard.windows 2 (.install notes)).1
    standard.fault?.isNone = true ∧ s.Reached standard CountableIcons (fun _ action => action.isRestore = false) ∧
      s.desktop.icons.map (·.order) = [1, 2, 3, 4, 4] ∧ ¬ s.desktop.RanksAscend ∧
      ¬ (s.desktop.icons.map (·.order)).Nodup := by
  intro standard notes holed s
  have atHoled : holed.Reached standard CountableIcons (fun _ action => action.isRestore = false) :=
    .step 1 _ (.start (by decide +kernel)) rfl (by decide +kernel)
  exact ⟨by decide +kernel, .step 2 _ atHoled rfl (by decide +kernel), by decide +kernel, by decide +kernel,
    by decide +kernel⟩

end Scene

end DesktopShell
