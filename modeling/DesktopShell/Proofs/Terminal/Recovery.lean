import DesktopShell.Proofs.Desktop.Record
import DesktopShell.Proofs.Storage
import DesktopShell.Proofs.Terminal.Logs

/-!
# Restoring desks and sessions

Desks and sessions are restored by the same load: from a source that may fail or give any
envelope, it takes the payload of an envelope in the current format and in version 0 or 1, if
the payload can be read (`Store.loadFrom_eq_some_iff`). Everything else leaves a desk and a
session as they were (`Store.Source.restores_or_keeps`).

What is saved of a session reads back as it was, its entries of all kinds with any text
(`Saved.record?_toJson`). A restore cuts what it takes over to what a session keeps. Nothing is
lost by that when it takes over what a session has saved: every session keeps within the limits,
also one that was restored from more than that (`Session.Lived.limited`). So any session goes on
with exactly what was saved (`Session.Lived.resumed`).
-/
namespace DesktopShell

namespace Store

/-- A source has a value under a name: an envelope in the format and in a version that are read, with a payload that
    reads as the value. -/
def Source.Has {α : Type} (source : Source) (name : String) (read : Json → Option α) (value : α) : Prop :=
  ∃ e, source name = .ok (some e) ∧ e.format = 1 ∧ (e.schema = 0 ∨ e.schema = 1) ∧ read e.payload = some value

theorem version_cases (version : UInt32) : version = 0 ∨ version = 1 ∨ 1 < version := by
  rcases Nat.lt_trichotomy version.toNat 1 with zero | one | newer
  · exact .inl (UInt32.toNat_inj.mp (Nat.lt_one_iff.mp zero))
  · exact .inr (.inl (UInt32.toNat_inj.mp one))
  · exact .inr (.inr (UInt32.lt_iff_toNat_lt.mpr newer))

/-- A record in version 1 that is written in version 0 just like that is loaded exactly when the source has one. -/
theorem loadFrom_eq_some_iff {α : Type} (source : Source) (name : String) (read : Json → Option α) (value : α) :
    loadFrom source name 1 read (fromVersionZero read) = .ok (some value) ↔ source.Has name read value := by
  unfold Source.Has
  cases given : source name with
  | error reason => simp [loadFrom, given]
  | ok found =>
    cases found with
    | none => simp [loadFrom, given]
    | some e =>
      simp only [Except.ok.injEq, Option.some.injEq, exists_eq_left']
      by_cases own : e.format = 1
      · rcases version_cases e.schema with zero | one | newer
        · rw [loadFrom_of_older given read _ own (zero ▸ by decide), fromVersionZero, if_pos zero]
          cases value? : read e.payload <;> simp [own, zero]
        · rw [loadFrom_of_same given read _ own one]
          cases value? : read e.payload <;> simp [own, one]
        · have apart : ¬ (e.schema = 0 ∨ e.schema = 1) := by rintro (zero | one) <;> simp_all
          simp [loadFrom_of_unreadable given read _ (.inr newer), apart]
      · simp [loadFrom_of_unreadable given read _ (.inl own), own]

theorem layoutFrom_eq_some_iff (source : Source) (snapshot : Snapshot Float) :
    layoutFrom source = some snapshot ↔ source.Has layoutName Snapshot.ofJson? snapshot := by
  rw [← loadFrom_eq_some_iff]
  unfold layoutFrom
  simp only [Desktop.layoutVersion]
  split <;> simp_all

/-- What a restore comes to that takes over a value when the source has one, and otherwise leaves things as they
    were. -/
def Source.Restores {α σ : Type} (source : Source) (name : String) (read : Json → Option α) (take : α → σ) (before : σ)
    (result : σ × Bool) : Prop :=
  (∃ value, source.Has name read value ∧ result = (take value, true)) ∨
    (¬ ∃ value, source.Has name read value) ∧ result = (before, false)

theorem Source.Restores.exactly {α σ : Type} {source : Source} {name : String} {read : Json → Option α} {take : α → σ}
    {before : σ} {result : σ × Bool} (restores : source.Restores name read take before result) :
    (result.2 = true ↔ ∃ value, source.Has name read value) ∧ (result.2 = false → result.1 = before) := by
  rcases restores with ⟨value, has, rfl⟩ | ⟨hasNot, rfl⟩
  · exact ⟨iff_of_true rfl ⟨value, has⟩, by simp⟩
  · exact ⟨iff_of_false (by simp) hasNot, fun _ => rfl⟩

end Store

theorem Desk.restoreFrom_restores (desk : Desk) (now : UInt64) (source : Store.Source) :
    source.Restores layoutName Snapshot.ofJson? (fun snapshot => desk.act now (.restore snapshot)) desk
      (desk.restoreFrom now source) := by
  unfold Store.Source.Restores restoreFrom
  simp only [← Store.layoutFrom_eq_some_iff]
  cases found : Store.layoutFrom source with
  | some snapshot => exact .inl ⟨snapshot, rfl, rfl⟩
  | none => exact .inr ⟨by simp, rfl⟩

namespace Terminal

/-- The session that continues a saved one, as far as it is kept. -/
def Session.continuing (s : Session) (saved : Saved) : Session :=
  { s with
    transcript := keepLast maxEntries saved.transcript
    history := keepLast maxHistory saved.history
    cursor := none }

theorem Session.restoreFrom_restores (s : Session) (source : Store.Source) :
    source.Restores sessionName Saved.reader.record? s.continuing s (s.restoreFrom source) := by
  unfold Store.Source.Restores restoreFrom
  simp only [← Store.loadFrom_eq_some_iff, sessionVersion]
  split
  next saved loaded => exact .inl ⟨saved, loaded, rfl⟩
  next failed => exact .inr ⟨by rintro ⟨saved, loaded⟩; exact failed saved loaded, rfl⟩

end Terminal

namespace Store.Source

/-- Whatever a source gives and however it fails, a desk is restored from it exactly when the source has a layout,
    and a session exactly when the source has one; a desk or a session that is not restored is the same as before in
    all its parts. -/
theorem restores_or_keeps (source : Source) :
    (∀ (desk : Desk) (now : UInt64),
      ((desk.restoreFrom now source).2 = true ↔ ∃ snapshot, source.Has layoutName Snapshot.ofJson? snapshot) ∧
      ((desk.restoreFrom now source).2 = false → (desk.restoreFrom now source).1 = desk)) ∧
    ∀ s : Terminal.Session,
      ((s.restoreFrom source).2 = true ↔
        ∃ saved, source.Has Terminal.sessionName Terminal.Saved.reader.record? saved) ∧
      ((s.restoreFrom source).2 = false → (s.restoreFrom source).1 = s) := by
  refine ⟨?_, ?_⟩
  · intro desk now
    exact (desk.restoreFrom_restores now source).exactly
  · intro s
    exact (s.restoreFrom_restores source).exactly

/-- A layout of version 0 is taken over from memory, and one of version 2 is not; a session is not restored from a
    payload that is none, and a source that fails restores neither. -/
theorem restores_or_keeps_standard :
    let desk := Desk.start Config.standard (.empty 0)
    let layout : Envelope := ⟨1, layoutName, 0, 7, desk.scene.desktop.snapshot.toJson⟩
    let opened := desk.act 1 (.openApp "terminal" none)
    let session := ((Terminal.Session.new none).submit opened 2 "help").1
    let garbled := Store.memory [⟨1, Terminal.sessionName, 1, 7, .text "lines"⟩, { layout with schema := 2 }]
    (opened.restore 3 (.memory [layout])).2 = true ∧ (opened.restore 3 garbled).1 = opened ∧
      (opened.restore 3 (.offline "unplugged")).1 = opened ∧ (session.restore garbled).1 = session ∧
      (session.restore (.offline "unplugged")).1 = session := by
  intro desk layout opened session garbled
  obtain ⟨snapshot, reads⟩ := Option.isSome_iff_exists.mp
    (show (Snapshot.ofJson? layout.payload).isSome = true by decide +kernel)
  refine ⟨?_, ?_, ?_, ?_, ?_⟩
  · exact ((restores_or_keeps (Store.memory [layout]).load).1 opened 3).1.mpr
      ⟨snapshot, layout, by simp [Store.load, layout], rfl, .inl rfl, reads⟩
  · exact ((restores_or_keeps garbled.load).1 opened 3).2 (by decide +kernel)
  · exact ((restores_or_keeps (Store.offline "unplugged").load).1 opened 3).2 rfl
  · exact ((restores_or_keeps garbled.load).2 session).2 (by decide +kernel)
  · exact ((restores_or_keeps (Store.offline "unplugged").load).2 session).2 rfl

end Store.Source

end DesktopShell

namespace DesktopShell.Terminal

theorem Entry.record?_toJson (entry : Entry) : Entry.reader.record? entry.toJson = some entry := by
  cases entry <;>
    simp only [Entry.toJson, Entry.kindName, Reader.record?, Format.fields?, Option.bind_some, Reader.run?, Entry.reader,
      ↓Reader.required_bind, Reader.pure_apply, List.lookup_cons, String.reduceBEq, Format.text?_text]

theorem Saved.record?_toJson (saved : Saved) : Saved.reader.record? saved.toJson = some saved := by
  obtain ⟨transcript, history⟩ := saved
  simp only [Saved.toJson, Reader.record?, Format.fields?, Option.bind_some, Reader.run?, Saved.reader,
    ↓Reader.required_bind, Reader.pure_apply, List.lookup_cons, String.reduceBEq,
    Format.listOf?_map Entry.record?_toJson, Format.listOf?_map Format.text?_text]

/-- What is saved of a session. -/
def Session.record (s : Session) : Saved := { transcript := s.transcript, history := s.history }

/-- What a store gets when a session is saved. -/
def Session.envelope (s : Session) (stamp : UInt64) : Envelope :=
  .make sessionName sessionVersion s.record.toJson stamp

namespace Session

/-- From a source that has nothing of a session but what one has saved, a session goes on with that or stays as it
    is. -/
theorem restoreFrom_saved (s : Session) {saved : Session} {source : Store.Source} {stamp : UInt64}
    (own : source.HasAtMost sessionName (saved.envelope stamp)) :
    (s.restoreFrom source).1 = s.continuing saved.record ∨ (s.restoreFrom source).1 = s := by
  rcases s.restoreFrom_restores source with ⟨value, ⟨e, found, -, -, reads⟩, restored⟩ | ⟨-, kept⟩
  · obtain rfl : e = saved.envelope stamp := own e found
    obtain rfl : saved.record = value := Option.some.inj (saved.record.record?_toJson.symm.trans reads)
    exact .inl (congrArg Prod.fst restored)
  · exact .inr (congrArg Prod.fst kept)

variable {s : Session}

/-- A session that comes about from a new one by lines on any desks, by recalls, and by restoring from any sources,
    whatever they have. -/
inductive Lived : Session → Prop
  | new (window : Option String) : Lived (new window)
  | submit {s : Session} (given : Submission) (lived : s.Lived) :
      Lived (s.submit given.desk given.now given.line).1
  | previous {s : Session} (lived : s.Lived) : Lived s.previous.1
  | next {s : Session} (lived : s.Lived) : Lived s.next.1
  | restore {s : Session} (source : Store.Source) (lived : s.Lived) : Lived (s.restoreFrom source).1

/-- No more entries and no more lines than a session keeps. -/
structure Limited (s : Session) : Prop where
  transcript : s.transcript.length ≤ maxEntries
  history : s.history.length ≤ maxHistory

/-- A recall leaves what is saved as it is. -/
theorem record_previous (s : Session) : s.previous.1.record = s.record := by
  unfold previous
  split <;> rfl

theorem record_next (s : Session) : s.next.1.record = s.record := by
  unfold next
  split
  · rfl
  · split <;> rfl

namespace Limited

theorem of_record {t : Session} (limited : s.Limited) (same : t.record = s.record) : t.Limited := by
  obtain ⟨transcript, history⟩ := Saved.mk.inj same
  exact ⟨transcript ▸ limited.transcript, history ▸ limited.history⟩

theorem new (window : Option String) : (new window).Limited := ⟨show 2 ≤ maxEntries by decide, Nat.zero_le _⟩

theorem submit (limited : s.Limited) (given : Submission) :
    (s.submit given.desk given.now given.line).1.Limited := by
  refine ⟨?_, ?_⟩
  · rw [s.submit_transcript limited.transcript]
    split
    · exact Nat.zero_le _
    · exact length_keepLast_le _ _
  · rw [s.submit_history]
    split
    · exact limited.history
    · exact length_keepLast_le _ _

theorem restoreFrom (limited : s.Limited) (source : Store.Source) : (s.restoreFrom source).1.Limited := by
  rcases s.restoreFrom_restores source with ⟨saved, -, restored⟩ | ⟨-, kept⟩
  · rw [restored]
    exact ⟨by simp only [continuing, length_keepLast_le], by simp only [continuing, length_keepLast_le]⟩
  · rw [kept]
    exact limited

end Limited

theorem Lived.limited (lived : s.Lived) : s.Limited := by
  induction lived with
  | new window => exact .new window
  | submit given _ ih => exact ih.submit given
  | previous _ ih => exact ih.of_record (record_previous _)
  | next _ ih => exact ih.of_record (record_next _)
  | restore source _ ih => exact ih.restoreFrom source

/-- A session is continued as it was saved when it kept within the limits. -/
theorem continuing_record (limited : s.Limited) (other : Session) :
    other.continuing s.record =
      { other with transcript := s.transcript, history := s.history, cursor := none } := by
  unfold continuing record
  rw [keepLast_of_few limited.transcript, keepLast_of_few limited.history]

theorem restoreFrom_of_saved {source : Store.Source} {stamp : UInt64}
    (kept : source sessionName = .ok (some (s.envelope stamp))) (other : Session) :
    other.restoreFrom source = (other.continuing s.record, true) := by
  have reads : Saved.reader.record? (s.envelope stamp).payload = some s.record := s.record.record?_toJson
  rcases other.restoreFrom_restores source with ⟨value, ⟨e, found, -, -, readsValue⟩, restored⟩ | ⟨nothing, -⟩
  · obtain rfl : s.envelope stamp = e := by simpa [kept] using found
    obtain rfl : s.record = value := Option.some.inj (reads.symm.trans readsValue)
    exact restored
  · exact absurd ⟨s.record, s.envelope stamp, kept, rfl, .inr rfl, reads⟩ nothing

/-- However a session has come about, and whatever there is in a memory, saving it there succeeds, and any other one
    that is restored from there goes on with just the transcript and the history that were saved and with no recall,
    in its own window and with its own last exit. What the memory keeps under other names stays as it is. -/
theorem Lived.resumed (lived : s.Lived) (other : Session) (envelopes : List Envelope) (stamp : UInt64) :
    ∃ kept, s.save (.memory envelopes) stamp = .ok (.memory kept) ∧
      other.restore (.memory kept) =
        ({ other with transcript := s.transcript, history := s.history, cursor := none }, true) ∧
      (kept.filter fun e => e.name ≠ sessionName) = (envelopes.filter fun e => e.name ≠ sessionName) ∧
      ∀ name, name ≠ sessionName → (Store.memory kept).load name = (Store.memory envelopes).load name := by
  refine ⟨Store.insert (s.envelope stamp) envelopes, rfl, ?_, ?_, ?_⟩
  · have kept : (Store.memory (Store.insert (s.envelope stamp) envelopes)).load sessionName =
        .ok (some (s.envelope stamp)) := Store.load_insert _ envelopes
    rw [Session.restore, restoreFrom_of_saved kept, continuing_record lived.limited]
  · exact Store.filter_insert (s.envelope stamp) envelopes
  · intro name apart
    have other : (s.envelope stamp).name ≠ name := apart.symm
    simp only [Store.load, Store.find?_insert, if_neg other]

/-- A session that was restored from a record of 250 entries and 120 lines keeps the last 200 and 100 of them. These
    it saves among the envelopes that there are, in place of the older one, and another session goes on with them. -/
theorem resumed_oversized :
    let long : Saved := ⟨.replicate 50 (.system "") ++ .replicate 200 (.error "a\n\"b\""), .replicate 120 "ls"⟩
    let layout : Envelope := ⟨1, layoutName, 9, 6, .null⟩
    let old : Envelope := ⟨1, sessionName, 0, 5, long.toJson⟩
    let s := ((new none).restore (.memory [old, layout])).1
    let other := (new (some "win-2")).remember "apps"
    s.Lived ∧ s.record = ⟨.replicate 200 (.error "a\n\"b\""), .replicate 100 "ls"⟩ ∧
      ∃ kept, s.save (.memory [old, layout]) 7 = .ok (.memory kept) ∧
        other.restore (.memory kept) =
          ({ other with transcript := s.transcript, history := s.history, cursor := none }, true) ∧
        (kept.filter fun e => e.name ≠ sessionName) = [layout] := by
  intro long layout old s other
  have lived : s.Lived := .restore _ (.new none)
  have kept : s.record = ⟨.replicate 200 (.error "a\n\"b\""), .replicate 100 "ls"⟩ := by decide +kernel
  obtain ⟨envelopes, saves, resumes, others, -⟩ := Lived.resumed lived other [old, layout] 7
  have layoutOnly : ([old, layout].filter fun e => e.name ≠ sessionName) = [layout] := by
    simp [old, layout, sessionName, layoutName]
  exact ⟨lived, kept, envelopes, saves, resumes, others.trans layoutOnly⟩

end Session

end DesktopShell.Terminal
