import DesktopShell.Proofs.Desktop.Runs
import DesktopShell.Proofs.Text
import Mathlib.Tactic.Common

/-!
# The registry of windows

A window's id is made from a number and reads back to it (`windowNumber?_label`),
so that windows with different numbers have different ids. A restored desktop
goes on counting after every number that its windows use (`windowNumber_lt_windowsAfter`).
Then what every turn keeps of the windows, as long as the counters have not come to
their end. An orderly desktop has windows with ids of their own and at most one
focus. A stacked one has no two windows equally high either, and its focus is on
top: that needs snapshots which were stacked when they were saved.
-/
namespace DesktopShell

namespace Number

private theorem isDigit_digitChar {d : Nat} (small : d < 10) : isDigit (digitChar d) = true := by
  revert d
  decide

/-- A decimal numeral consists of decimal digits. -/
theorem isDigit_of_mem_decimal {n : Nat} {c : Char} (member : c ∈ decimal n) : isDigit c = true := by
  induction n using decimal.induct with
  | case1 n small =>
    unfold decimal at member
    rw [if_pos small, List.mem_singleton] at member
    exact member ▸ isDigit_digitChar small
  | case2 n large ih =>
    unfold decimal at member
    rw [if_neg large, List.mem_append, List.mem_singleton] at member
    rcases member with front | last
    · exact ih front
    · exact last ▸ isDigit_digitChar (Nat.mod_lt n (by decide))

/-- A word of 64 bits reads back from its decimal numeral. -/
theorem word?_decimal (n : UInt64) : word? 10 (decimal n.toNat) = some n.toNat := by
  have bound : n.toNat < Nat.pow 2 64 := n.toNat_lt
  simp only [word?, ofDigits?_decimal, bound, ↓reduceIte]

theorem lt_of_word? {base : Nat} {digits : List Char} {n : Nat} (read : word? base digits = some n) :
    n < Nat.pow 2 64 := by
  unfold word? at read
  split at read
  · split at read
    · rename_i small
      exact Option.some.inj read ▸ small
    · simp at read
  · simp at read

end Number

namespace Restore

/-- The id that the desktop makes from a number has that number. -/
theorem windowNumber?_label (n : UInt64) : windowNumber? (Counter.label "win" n) = some n.toNat := by
  have spelled : (Counter.label "win" n).toList = 'w' :: 'i' :: 'n' :: '-' :: Number.decimal n.toNat := by
    simp [Counter.label, Number.decimalText]
  have digits := Number.word?_decimal n
  unfold windowNumber?
  rw [spelled]
  cases numeral : Number.decimal n.toNat with
  | nil => exact absurd numeral (Number.decimal_ne_nil n.toNat)
  | cons first rest =>
    -- A numeral has no sign, so the pattern for signed numbers does not apply.
    have unsigned : first ≠ '+' := by
      rintro rfl
      have digit : Number.isDigit '+' = true :=
        Number.isDigit_of_mem_decimal (n := n.toNat) (by simp [numeral])
      exact absurd digit (by decide)
    rw [numeral] at digits
    split
    · rename_i digits' same
      simp only [List.cons.injEq, true_and] at same
      exact absurd same.1 unsigned
    · rename_i digits' _ same
      simp only [List.cons.injEq, true_and] at same
      rw [← same]
      exact digits
    · rename_i _ other
      exact absurd rfl (other (first :: rest))

/-- The number in an id fits in 64 bits. -/
theorem windowNumber?_lt {id : String} {n : Nat} (number : windowNumber? id = some n) :
    n < Nat.pow 2 64 := by
  unfold windowNumber? at number
  split at number
  · exact Number.lt_of_word? number
  · exact Number.lt_of_word? number
  · simp at number

private theorem le_foldl_max (numbers : List Nat) (start : Nat) :
    start ≤ numbers.foldl max start ∧ ∀ n ∈ numbers, n ≤ numbers.foldl max start := by
  induction numbers generalizing start with
  | nil => simp
  | cons first rest ih =>
    obtain ⟨above, others⟩ := ih (max start first)
    rw [List.foldl_cons]
    refine ⟨by omega, ?_⟩
    intro n member
    rcases List.mem_cons.mp member with rfl | later
    · omega
    · exact others n later

private theorem foldl_max_lt {bound : Nat} (numbers : List Nat) (start : Nat) (low : start < bound)
    (small : ∀ n ∈ numbers, n < bound) : numbers.foldl max start < bound := by
  induction numbers generalizing start with
  | nil => exact low
  | cons first rest ih =>
    have firstSmall := small first (by simp)
    exact ih (max start first) (by omega) fun n later => small n (by simp [later])

/-- A restored desktop opens its next window with a number above all that its windows have, unless
    the numbers run out. -/
theorem windowNumber_lt_windowsAfter {α : Type} {windows : List (Window α)}
    (room : windowsAfter windows < Counter.top) {w : Window α} (member : w ∈ windows) {n : Nat}
    (number : windowNumber? w.id = some n) : n < (windowsAfter windows).toNat := by
  have listed : n ∈ windows.filterMap fun w => windowNumber? w.id :=
    List.mem_filterMap.mpr ⟨w, member, number⟩
  have small : ∀ m ∈ windows.filterMap fun w => windowNumber? w.id, m < Nat.pow 2 64 := by
    intro m used
    obtain ⟨v, _, numbered⟩ := List.mem_filterMap.mp used
    exact windowNumber?_lt numbered
  unfold windowsAfter at room ⊢
  generalize windows.filterMap (fun w => windowNumber? w.id) = numbers at *
  have notAbove : n ≤ largest numbers := (le_foldl_max numbers 0).2 n listed
  have fits : largest numbers < Nat.pow 2 64 := foldl_max_lt numbers 0 (by decide) small
  have unsaturated : UInt64.ofNat (largest numbers) ≠ Counter.top := by
    intro atTop
    rw [atTop] at room
    exact absurd room (by decide)
  have read : (UInt64.ofNat (largest numbers)).toNat = largest numbers := UInt64.toNat_ofNat_of_lt' fits
  have after := Counter.next_toNat unsaturated
  omega

end Restore

namespace Desktop
variable {α : Type}

/-- What restored desktops keep, whatever z values their windows had: windows have ids of their own,
    the counters are past all that the windows use, no window is closed, and at most one has the
    focus, which is then shown. -/
structure Orderly (d : Desktop α) : Prop where
  ids : (d.windows.map (·.id)).Nodup
  numbers : ∀ w ∈ d.windows, ∀ n, Restore.windowNumber? w.id = some n → n < d.nextWindow.toNat
  below : ∀ w ∈ d.windows, w.z < d.nextZ
  live : ∀ w ∈ d.windows, w.status ≠ .closed
  shown : ∀ w ∈ d.windows, w.focused = true → w.status = .shown
  alone : ∀ v ∈ d.windows, ∀ w ∈ d.windows, v.focused = true → w.focused = true → v.id = w.id

private theorem id_of_focused_raise {d : Desktop α} {id : String} {w : Window α}
    (member : w ∈ (d.raise id).windows) (focused : w.focused = true) : w.id = id := by
  obtain ⟨v, _, ⟨named, rfl⟩ | ⟨_, rfl⟩⟩ := mem_raise member
  · exact named
  · simp [Window.dimmed] at focused

private theorem eq_newWindow_of_focused [Coordinate α] {d : Desktop α} {defaults : Defaults α} {now : UInt64}
    {app : App} {data : Option Json} (dim : ∀ w ∈ d.windows, w.focused = false) {w : Window α}
    (member : w ∈ (d.addWindow defaults now app data).windows) (focused : w.focused = true) :
    w = d.newWindow defaults now app data := by
  rcases mem_addWindow.mp member with old | new
  · simp [dim w old] at focused
  · exact new

private theorem dim_unfocus (d : Desktop α) : ∀ w ∈ d.unfocus.windows, w.focused = false := by
  intro w member
  obtain ⟨v, _, rfl⟩ := mem_unfocus.mp member
  rfl

namespace Orderly
variable {d next : Desktop α}

/-- No window has the id that is given next. -/
theorem fresh (orderly : d.Orderly) : d.nextWindowId ∉ d.windows.map (·.id) := by
  intro used
  obtain ⟨w, member, named⟩ := List.mem_map.mp used
  have number : Restore.windowNumber? w.id = some d.nextWindow.toNat := by
    rw [named]
    exact Restore.windowNumber?_label d.nextWindow
  exact Nat.lt_irrefl _ (orderly.numbers w member _ number)

/-- At most one window has the focus. -/
theorem countP_focused (orderly : d.Orderly) : d.windows.countP (·.focused) ≤ 1 := by
  have distinct : (d.windows.filter (·.focused)).Nodup := (orderly.ids.of_map _).filter _
  have same : ∀ v ∈ d.windows.filter (·.focused), ∀ w ∈ d.windows.filter (·.focused), v = w := by
    intro v member w member'
    obtain ⟨old, focused⟩ := List.mem_filter.mp member
    obtain ⟨old', focused'⟩ := List.mem_filter.mp member'
    exact List.inj_on_of_nodup_map orderly.ids old old' (orderly.alone v old w old' focused focused')
  rw [List.countP_eq_length_filter]
  generalize d.windows.filter (·.focused) = focused at *
  match focused with
  | [] => simp
  | [_] => simp
  | v :: w :: _ => simp [same v (by simp) w (by simp)] at distinct

theorem remains (orderly : d.Orderly) (remains : d.Remains next) : next.Orderly := by
  obtain ⟨window, z, ids, _, follows⟩ := remains
  refine ⟨orderly.ids.sublist ids, ?_, ?_, ?_, ?_, ?_⟩
  · intro w member n number
    obtain ⟨v, old, later⟩ := follows w member
    rw [window]
    exact orderly.numbers v old n (later.id ▸ number)
  · intro w member
    obtain ⟨v, old, later⟩ := follows w member
    rw [z, later.z]
    exact orderly.below v old
  · intro w member
    obtain ⟨v, old, later⟩ := follows w member
    exact later.live (orderly.live v old)
  · intro w member focused
    obtain ⟨v, old, later⟩ := follows w member
    obtain ⟨before, same⟩ := later.focused focused
    rw [same]
    exact orderly.shown v old before
  · intro w member w' member' focused focused'
    obtain ⟨v, old, later⟩ := follows w member
    obtain ⟨v', old', later'⟩ := follows w' member'
    rw [later.id, later'.id]
    exact orderly.alone v old v' old' (later.focused focused).1 (later'.focused focused').1

theorem raise (orderly : d.Orderly) (id : String) (room : (d.raise id).nextZ < Counter.top) :
    (d.raise id).Orderly := by
  have advanced : d.nextZ < (d.raise id).nextZ := Counter.lt_next room
  refine ⟨by simpa using orderly.ids, ?_, ?_, ?_, ?_, ?_⟩
  · intro w member n number
    obtain ⟨v, old, ⟨_, rfl⟩ | ⟨_, rfl⟩⟩ := mem_raise member
    · exact orderly.numbers v old n number
    · exact orderly.numbers v old n number
  · intro w member
    obtain ⟨v, old, ⟨_, rfl⟩ | ⟨_, rfl⟩⟩ := mem_raise member
    · exact advanced
    · exact UInt64.lt_trans (orderly.below v old) advanced
  · intro w member
    obtain ⟨v, old, ⟨_, rfl⟩ | ⟨_, rfl⟩⟩ := mem_raise member
    · simp [Window.fronted]
    · exact orderly.live v old
  · intro w member focused
    obtain ⟨v, old, ⟨_, rfl⟩ | ⟨_, rfl⟩⟩ := mem_raise member
    · rfl
    · simp [Window.dimmed] at focused
  · intro w member w' member' focused focused'
    rw [id_of_focused_raise member focused, id_of_focused_raise member' focused']

theorem addWindow [Coordinate α] (orderly : d.Orderly) (dim : ∀ w ∈ d.windows, w.focused = false)
    {defaults : Defaults α} {now : UInt64} {app : App} {data : Option Json}
    (room : (d.addWindow defaults now app data).nextWindow < Counter.top ∧
      (d.addWindow defaults now app data).nextZ < Counter.top) :
    (d.addWindow defaults now app data).Orderly := by
  have counted : d.nextWindow < Counter.next d.nextWindow := Counter.lt_next room.1
  have advanced : d.nextZ < Counter.next d.nextZ := Counter.lt_next room.2
  refine ⟨?_, ?_, ?_, ?_, ?_, ?_⟩
  · have fresh : d.nextWindowId ∉ d.windows.map (·.id) := orderly.fresh
    simpa [Desktop.addWindow, newWindow] using List.Nodup.concat fresh orderly.ids
  · intro w member n number
    rw [UInt64.lt_iff_toNat_lt] at counted
    rcases mem_addWindow.mp member with old | rfl
    · exact Nat.lt_trans (orderly.numbers w old n number) counted
    · have own : n = d.nextWindow.toNat := by
        simpa [newWindow, nextWindowId, Restore.windowNumber?_label, eq_comm] using number
      exact own ▸ counted
  · intro w member
    rcases mem_addWindow.mp member with old | rfl
    · exact UInt64.lt_trans (orderly.below w old) advanced
    · exact advanced
  · intro w member
    rcases mem_addWindow.mp member with old | rfl
    · exact orderly.live w old
    · simp [newWindow]
  · intro w member focused
    rcases mem_addWindow.mp member with old | rfl
    · simp [dim w old] at focused
    · rfl
  · intro w member w' member' focused focused'
    rw [eq_newWindow_of_focused dim member focused, eq_newWindow_of_focused dim member' focused']

theorem turn [Coordinate α] {defaults : Defaults α} {now : UInt64} (orderly : d.Orderly)
    (turn : Turn defaults now d next) (room : next.nextWindow < Counter.top ∧ next.nextZ < Counter.top) :
    next.Orderly := by
  rcases turn.remains_or with remaining | ⟨id, _, rfl⟩ | ⟨app, data, rfl⟩
  · exact orderly.remains remaining
  · exact orderly.raise id room.2
  · exact (orderly.remains (.unfocus d)).addWindow (dim_unfocus d) room

end Orderly

/-- What desktops keep besides that never met a foreign snapshot: no two windows are equally high, and
    a window with the focus is above all others. -/
structure Stacked (d : Desktop α) : Prop where
  layers : (d.windows.map (·.z)).Nodup
  front : ∀ w ∈ d.windows, w.focused = true → ∀ v ∈ d.windows, v.id ≠ w.id → v.z < w.z

namespace Stacked
variable {d next : Desktop α}

theorem remains (stacked : d.Stacked) (remains : d.Remains next) : next.Stacked := by
  refine ⟨stacked.layers.sublist remains.zs, ?_⟩
  intro w member focused v member' apart
  obtain ⟨w₀, old, later⟩ := remains.follows w member
  obtain ⟨v₀, old', later'⟩ := remains.follows v member'
  rw [later.z, later'.z]
  exact stacked.front w₀ old (later.focused focused).1 v₀ old' (by rwa [← later.id, ← later'.id])

theorem raise (stacked : d.Stacked) (orderly : d.Orderly) (id : String) : (d.raise id).Stacked := by
  refine ⟨?_, ?_⟩
  · -- The ids tell the raised window from the others; the others keep their own z values below.
    have apart := (List.pairwise_map.mp orderly.ids).and (List.pairwise_map.mp stacked.layers)
    refine List.pairwise_map.mpr (List.pairwise_map.mpr (apart.imp_of_mem ?_))
    intro v w old old' ⟨ids, zs⟩
    have low := orderly.below v old
    have low' := orderly.below w old'
    by_cases named : v.id = id
    · have other : w.id ≠ id := fun same => ids (named.trans same.symm)
      simpa [named, other] using (UInt64.ne_of_lt low').symm
    · by_cases named' : w.id = id
      · simpa [named, named'] using UInt64.ne_of_lt low
      · simpa [named, named'] using zs
  · intro w member focused v member' apart
    have named := id_of_focused_raise member focused
    obtain ⟨w₀, _, ⟨_, rfl⟩ | ⟨other, rfl⟩⟩ := mem_raise member
    · obtain ⟨v₀, old, ⟨same, rfl⟩ | ⟨_, rfl⟩⟩ := mem_raise member'
      · exact absurd (same.trans named.symm) apart
      · exact orderly.below v₀ old
    · exact absurd named other

theorem addWindow [Coordinate α] (stacked : d.Stacked) (orderly : d.Orderly)
    (dim : ∀ w ∈ d.windows, w.focused = false) {defaults : Defaults α} {now : UInt64} {app : App}
    {data : Option Json} : (d.addWindow defaults now app data).Stacked := by
  refine ⟨?_, ?_⟩
  · have above : d.nextZ ∉ d.windows.map (·.z) := by
      intro used
      obtain ⟨w, member, same⟩ := List.mem_map.mp used
      exact UInt64.ne_of_lt (orderly.below w member) same
    simpa [Desktop.addWindow, newWindow] using List.Nodup.concat above stacked.layers
  · intro w member focused v member' apart
    rw [eq_newWindow_of_focused dim member focused] at apart ⊢
    rcases mem_addWindow.mp member' with old | rfl
    · exact orderly.below v old
    · exact absurd rfl apart

theorem turn [Coordinate α] {defaults : Defaults α} {now : UInt64} (stacked : d.Stacked) (orderly : d.Orderly)
    (turn : Turn defaults now d next) : next.Stacked := by
  rcases turn.remains_or with remaining | ⟨id, _, rfl⟩ | ⟨app, data, rfl⟩
  · exact stacked.remains remaining
  · exact stacked.raise orderly id
  · exact (stacked.remains (.unfocus d)).addWindow (orderly.remains (.unfocus d)) (dim_unfocus d)

end Stacked

end Desktop

end DesktopShell
