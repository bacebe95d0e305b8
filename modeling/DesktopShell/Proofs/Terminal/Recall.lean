import DesktopShell.Proofs.Terminal.Recovery

/-!
# Recalling earlier lines

A recall stands at a place of the history, and without a recall a session stands past its
end. From there on the history is walked by one entry with each call, back to the oldest and
on to past the newest (`Session.recallAll_earlier`, `Session.recallAll_later`). The place is
never left behind when the history changes: whatever changes it also ends the recall
(`Session.Sound`).
-/
namespace DesktopShell.Terminal.Session

/-- A session that comes about from a new one by lines on any desks, by recalls, and by restoring from sources that
    have nothing of a session but what such a session has saved. -/
inductive Reached : Session → Prop
  | new (window : Option String) : Reached (new window)
  | submit {s : Session} (given : Submission) (reached : s.Reached) :
      Reached (s.submit given.desk given.now given.line).1
  | previous {s : Session} (reached : s.Reached) : Reached s.previous.1
  | next {s : Session} (reached : s.Reached) : Reached s.next.1
  | restore {s saved : Session} {source : Store.Source} {stamp : UInt64} (reached : s.Reached)
      (savedReached : saved.Reached) (own : source.HasAtMost sessionName (saved.envelope stamp)) :
      Reached (s.restoreFrom source).1

namespace Reached
variable {s saved : Session}

theorem submitAll (reached : s.Reached) (lines : List Submission) : (s.submitAll lines).Reached := by
  induction lines using List.reverseRecOn with
  | nil => exact reached
  | append_singleton before given ih =>
    rw [submitAll_append_singleton]
    exact ih.submit given

/-- A session is restored from a store that another one has been saved in. -/
theorem restore_save (reached : s.Reached) (savedReached : saved.Reached) {store kept : Store} {stamp : UInt64}
    (saves : saved.save store stamp = .ok kept) : (s.restore kept).1.Reached :=
  reached.restore savedReached (Store.hasAtMost_of_save saves)

end Reached

/-- A session whose recall stands at a place of the history; past its end there is no recall. -/
def standingAt (s : Session) (place : Nat) : Session :=
  { s with cursor := if place < s.history.length then some place else none }

theorem standingAt_length {s : Session} (ended : s.cursor = none) : s.standingAt s.history.length = s := by
  obtain ⟨window, transcript, history, cursor, exit⟩ := s
  cases ended
  simp [standingAt]

theorem standingAt_cursor {s : Session} {place : Nat} (stands : s.cursor = some place)
    (within : place < s.history.length) : s.standingAt place = s := by
  rw [standingAt, if_pos within, ← stands]

section
variable (s : Session)

theorem previous_standingAt (inhabited : s.history ≠ []) {place : Nat} (within : place ≤ s.history.length) :
    (s.standingAt place).previous = (s.standingAt (place - 1), s.history[place - 1]?) := by
  have some : 0 < s.history.length := List.length_pos_iff.mpr inhabited
  have before : place - 1 < s.history.length := by omega
  have nonempty : s.history.isEmpty = false := by simpa using inhabited
  rcases within.lt_or_eq with inside | rfl
  · simp [previous, standingAt, nonempty, inside, before]
  · simp [previous, standingAt, nonempty, before]

theorem next_standingAt (place : Nat) : (s.standingAt place).next = (s.standingAt (place + 1), s.history[place + 1]?) := by
  by_cases inside : place < s.history.length
  · by_cases newest : s.history.length ≤ place + 1
    · simp [next, standingAt, inside, newest]
    · simp [next, standingAt, inside, newest, Nat.lt_of_not_le newest]
  · have past : ¬ place + 1 < s.history.length := by omega
    simp [next, standingAt, inside, past]

end

/-- A recall goes to an earlier line or to a later one. -/
inductive Recall where
  | earlier
  | later

def recallOne (s : Session) : Recall → Session × Option String
  | .earlier => s.previous
  | .later => s.next

/-- A session after recalls, and what each of them gives. -/
def recallAll (s : Session) : List Recall → Session × List (Option String)
  | [] => (s, [])
  | move :: moves =>
    let moved := s.recallOne move
    let rest := moved.1.recallAll moves
    (rest.1, moved.2 :: rest.2)

theorem recallAll_append (s : Session) (moves others : List Recall) :
    s.recallAll (moves ++ others) =
      (((s.recallAll moves).1.recallAll others).1,
        (s.recallAll moves).2 ++ ((s.recallAll moves).1.recallAll others).2) := by
  induction moves generalizing s with
  | nil => rfl
  | cons move moves ih =>
    rw [List.cons_append, recallAll, ih]
    rfl

section
variable (s : Session)

theorem recallAll_earlier (inhabited : s.history ≠ []) (back : Nat) {place : Nat} (within : place ≤ s.history.length) :
    (s.standingAt place).recallAll (.replicate back .earlier) =
      (s.standingAt (place - back), (List.range back).map fun i => s.history[place - (i + 1)]?) := by
  induction back generalizing place with
  | zero => rfl
  | succ back ih =>
    have nearer : place - 1 ≤ s.history.length := by omega
    rw [List.replicate_succ, recallAll, recallOne, s.previous_standingAt inhabited within]
    simp only [ih nearer]
    simp [List.range_succ_eq_map, Nat.sub_sub, Nat.add_comm 1, Function.comp_def]

theorem recallAll_later (on place : Nat) :
    (s.standingAt place).recallAll (.replicate on .later) =
      (s.standingAt (place + on), (List.range on).map fun i => s.history[place + (i + 1)]?) := by
  induction on generalizing place with
  | zero => rfl
  | succ on ih =>
    rw [List.replicate_succ, recallAll, recallOne, s.next_standingAt]
    simp only [ih]
    simp [List.range_succ_eq_map, Nat.add_assoc, Nat.add_comm 1, Function.comp_def]

end

/-- The place of a recall is one of the history, whose lines are trimmed and not blank, and none is the one before. -/
structure Sound (s : Session) : Prop where
  cursor : ∀ place, s.cursor = some place → place < s.history.length
  apart : s.history.IsChain (· ≠ ·)
  spoken : ∀ line ∈ s.history, line ≠ "" ∧ Text.trim line = line

theorem remember_cursor (s : Session) (command : String) : (s.remember command).cursor = none := by
  unfold remember
  split <;> rfl

theorem submit_cursor (s : Session) {given : Submission} (spoken : given.command ≠ "") :
    (s.submit given.desk given.now given.line).1.cursor = none := by
  by_cases clears : given.command = "clear"
  · simp only [submit_of_clear s clears, remember_cursor]
  · simp only [submit_of_command s spoken clears, remember_cursor]

namespace Sound
variable {s saved : Session}

theorem new (window : Option String) : (new window).Sound :=
  ⟨nofun, .nil, nofun⟩

/-- With no recall, a session is sound when its history is the end of a list with such lines. -/
theorem of_keepLast {lines : List String} (ended : s.cursor = none) (kept : s.history = keepLast maxHistory lines)
    (apart : lines.IsChain (· ≠ ·)) (spoken : ∀ line ∈ lines, line ≠ "" ∧ Text.trim line = line) : s.Sound := by
  refine ⟨?_, ?_, ?_⟩
  · simp [ended]
  · exact kept ▸ apart.drop _
  · intro line member
    rw [kept] at member
    exact spoken line (List.mem_of_mem_drop member)

theorem submit (sound : s.Sound) (given : Submission) :
    (s.submit given.desk given.now given.line).1.Sound := by
  by_cases blank : given.command = ""
  · rw [submit_of_blank s blank]
    exact sound
  by_cases same : s.history.getLast? = some given.command
  · have kept : (s.submit given.desk given.now given.line).1.history = s.history := by
      rw [submit_history, if_pos (.inr same)]
    refine ⟨by simp [submit_cursor s blank], ?_, ?_⟩
    · rw [kept]
      exact sound.apart
    · rw [kept]
      exact sound.spoken
  · have kept : (s.submit given.desk given.now given.line).1.history =
        keepLast maxHistory (s.history ++ [given.command]) := by
      rw [submit_history, if_neg (not_or.mpr ⟨blank, same⟩)]
    refine of_keepLast (submit_cursor s blank) kept ?_ ?_
    · rw [List.isChain_append]
      refine ⟨sound.apart, .singleton _, ?_⟩
      intro last isLast first isFirst equal
      obtain rfl : given.command = first := by simpa using isFirst
      exact same (equal ▸ isLast)
    · intro line member
      rcases List.mem_append.mp member with old | added
      · exact sound.spoken line old
      · obtain rfl := List.mem_singleton.mp added
        exact ⟨blank, Text.trim_trim given.line⟩

theorem restoreFrom (sound : s.Sound) (savedSound : saved.Sound) {source : Store.Source} {stamp : UInt64}
    (own : source.HasAtMost sessionName (saved.envelope stamp)) : (s.restoreFrom source).1.Sound := by
  rcases s.restoreFrom_saved own with continued | same
  · rw [continued]
    exact of_keepLast rfl rfl savedSound.apart savedSound.spoken
  · rw [same]
    exact sound

theorem standingAt (sound : s.Sound) (place : Nat) : (s.standingAt place).Sound := by
  refine ⟨?_, sound.apart, sound.spoken⟩
  intro stands isPlace
  obtain ⟨within, rfl⟩ : place < s.history.length ∧ place = stands := by
    simpa [Session.standingAt] using isPlace
  exact within

theorem exists_standingAt (sound : s.Sound) : ∃ place ≤ s.history.length, s.standingAt place = s := by
  cases stands : s.cursor with
  | none => exact ⟨_, le_rfl, standingAt_length stands⟩
  | some place =>
    have within := sound.cursor place stands
    exact ⟨place, within.le, standingAt_cursor stands within⟩

theorem recallOne_standingAt (sound : s.Sound) (move : Recall) : ∃ place, (s.recallOne move).1 = s.standingAt place := by
  obtain ⟨place, within, stands⟩ := sound.exists_standingAt
  cases move with
  | earlier =>
    by_cases empty : s.history = []
    · exact ⟨place, by simp [recallOne, previous, empty, stands]⟩
    · have moved := s.previous_standingAt empty within
      rw [stands] at moved
      exact ⟨place - 1, congrArg Prod.fst moved⟩
  | later =>
    have moved := s.next_standingAt place
    rw [stands] at moved
    exact ⟨place + 1, congrArg Prod.fst moved⟩

theorem recallAll_standingAt (sound : s.Sound) (moves : List Recall) :
    ∃ place, (s.recallAll moves).1 = s.standingAt place := by
  induction moves generalizing s with
  | nil =>
    obtain ⟨place, -, stands⟩ := sound.exists_standingAt
    exact ⟨place, stands.symm⟩
  | cons move moves ih =>
    obtain ⟨place, moved⟩ := sound.recallOne_standingAt move
    rw [recallAll, moved]
    exact ih (sound.standingAt place)

theorem recallOne (sound : s.Sound) (move : Recall) : (s.recallOne move).1.Sound := by
  obtain ⟨place, moved⟩ := sound.recallOne_standingAt move
  exact moved ▸ sound.standingAt place

end Sound

namespace Reached
variable {s : Session}

theorem sound (reached : s.Reached) : s.Sound := by
  induction reached with
  | new window => exact .new window
  | submit given _ ih => exact ih.submit given
  | previous _ ih => exact ih.recallOne .earlier
  | next _ ih => exact ih.recallOne .later
  | restore _ _ own ih savedIh => exact ih.restoreFrom savedIh own

/-- However a session has come about, a recall stands at a place of its history, and the lines there are trimmed,
    not blank and none the one before. With no recall, steps back give the lines from the newest to the oldest and
    then the oldest again and again; steps on from there give the lines that follow, and past the newest nothing,
    where the recall is over. Recalls change nothing but the place. -/
theorem recalls (reached : s.Reached) :
    (∀ place, s.cursor = some place → place < s.history.length) ∧
    (s.history.IsChain (· ≠ ·) ∧ ∀ line ∈ s.history, line ≠ "" ∧ Text.trim line = line) ∧
    (s.cursor = none → s.history ≠ [] → ∀ back on : Nat,
      s.recallAll (.replicate back .earlier ++ .replicate on .later) =
        (s.standingAt (s.history.length - back + on),
          ((List.range back).map fun i => s.history[s.history.length - (i + 1)]?) ++
            (List.range on).map fun i => s.history[s.history.length - back + (i + 1)]?)) ∧
    ∀ moves, ∃ cursor, (s.recallAll moves).1 = { s with cursor } := by
  have sound := reached.sound
  refine ⟨sound.cursor, ⟨sound.apart, sound.spoken⟩, ?_, ?_⟩
  · intro ended inhabited back on
    have backwards := s.recallAll_earlier inhabited back le_rfl
    rw [standingAt_length ended] at backwards
    rw [recallAll_append, backwards, recallAll_later]
  · intro moves
    obtain ⟨place, moved⟩ := sound.recallAll_standingAt moves
    exact ⟨_, moved⟩

end Reached

/-- A session is restored from what another one has saved and recalls the lines of that one. -/
theorem recalls_restored :
    let desk := Desk.start Config.standard (.empty 0)
    let spoken := (new none).submitAll (["windows", "apps", " apps "].map fun line => ⟨desk, 1, line⟩)
    let restored := ((new (some "win-1")).restore (.memory [spoken.envelope 7])).1
    restored.history = ["windows", "apps"] ∧
      restored.recallAll (.replicate 3 .earlier ++ .replicate 2 .later) =
        (restored, [some "apps", some "windows", some "windows", some "apps", none]) := by
  intro desk spoken restored
  have spokenReached : spoken.Reached := (Reached.new none).submitAll _
  have saves : spoken.save (.memory []) 7 = .ok (.memory [spoken.envelope 7]) := rfl
  have reached : restored.Reached := (Reached.new _).restore_save spokenReached saves
  have history : restored.history = ["windows", "apps"] := by decide +kernel
  have ended : restored.cursor = none := by decide +kernel
  refine ⟨history, ?_⟩
  have past : restored.standingAt 2 = restored := by simpa [history] using standingAt_length ended
  rw [(Reached.recalls reached).2.2.1 ended (by simp [history]) 3 2, history]
  exact congrArg (·, _) past

end DesktopShell.Terminal.Session
