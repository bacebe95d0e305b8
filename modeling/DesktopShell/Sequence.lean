/-!
# Sequences

A list with its first element of a kind changed. What a change leaves alone in the
elements it leaves alone in the list (`map_changeFirst`), and a search for another kind
finds what it found before (`find?_changeFirst_of_disjoint`). Two changes of one kind are
one (`changeFirst_changeFirst`), and changes of kinds that have nothing in common may
change places (`changeFirst_comm`). Where the elements have
keys of their own the first one of a key is the only one: it is the one that a
search finds (`find?_eq_some_iff_key`), that a change changes (`changeFirst_eq_map`), and
that an erasure takes out (`eraseP_eq_filter_key`).

A list in the order of keys with an element put in. It is found under its key, and under
other keys nothing has changed (`find?_insertByKey`, `filter_insertByKey`).
-/
namespace DesktopShell

/-- A list with its first element of a kind changed. -/
def changeFirst {β : Type} (p : β → Bool) (f : β → β) : List β → List β
  | [] => []
  | x :: xs => if p x then f x :: xs else x :: changeFirst p f xs

section
variable {β γ : Type} {p : β → Bool} {f : β → β}

theorem mem_changeFirst {xs : List β} {x : β} (member : x ∈ changeFirst p f xs) :
    x ∈ xs ∨ ∃ y ∈ xs, p y = true ∧ x = f y := by
  induction xs with
  | nil => simp [changeFirst] at member
  | cons first rest ih =>
    unfold changeFirst at member
    by_cases found : p first = true
    · rw [if_pos found] at member
      rcases List.mem_cons.mp member with changed | later
      · exact .inr ⟨first, by simp, found, changed⟩
      · exact .inl (by simp [later])
    · rw [if_neg found] at member
      rcases List.mem_cons.mp member with same | later
      · exact .inl (by simp [same])
      · rcases ih later with old | ⟨y, old, chosen, changed⟩
        · exact .inl (by simp [old])
        · exact .inr ⟨y, by simp [old], chosen, changed⟩

/-- A change that keeps what a function sees of the elements keeps what it sees of the list. -/
theorem map_changeFirst (g : β → γ) (keeps : ∀ x, g (f x) = g x) (xs : List β) :
    (changeFirst p f xs).map g = xs.map g := by
  induction xs with
  | nil => rfl
  | cons first rest ih =>
    unfold changeFirst
    by_cases found : p first = true
    · simp [found, keeps]
    · simp [found, ih]

/-- What a function sees of the list stays just when a change leaves what it sees of the element that it changes. -/
theorem map_changeFirst_eq_iff (g : β → γ) (xs : List β) :
    (changeFirst p f xs).map g = xs.map g ↔ ∀ x, xs.find? p = some x → g (f x) = g x := by
  induction xs with
  | nil => simp [changeFirst]
  | cons first rest ih =>
    unfold changeFirst
    by_cases found : p first = true
    · simp [found]
    · simp [found, ih]

/-- The first element of a kind is found changed. -/
theorem find?_changeFirst_self (keeps : ∀ x, p (f x) = p x) (xs : List β) :
    (changeFirst p f xs).find? p = (xs.find? p).map f := by
  induction xs with
  | nil => rfl
  | cons first rest ih =>
    unfold changeFirst
    by_cases found : p first = true
    · simp [found, keeps]
    · simp [found, ih]

/-- The first element of another kind is found as it was. -/
theorem find?_changeFirst_of_disjoint {q : β → Bool} (apart : ∀ x, p x = true → q x = false)
    (keeps : ∀ x, q (f x) = q x) (xs : List β) : (changeFirst p f xs).find? q = xs.find? q := by
  induction xs with
  | nil => rfl
  | cons first rest ih =>
    unfold changeFirst
    by_cases found : p first = true
    · simp [found, keeps, apart first found]
    · simp [found, List.find?_cons, ih]

/-- Two changes of the first element of a kind are one, when the first one leaves it of that kind. -/
theorem changeFirst_changeFirst {g : β → β} (keeps : ∀ x, p (f x) = p x) (xs : List β) :
    changeFirst p g (changeFirst p f xs) = changeFirst p (fun x => g (f x)) xs := by
  induction xs with
  | nil => rfl
  | cons first rest ih =>
    by_cases found : p first = true
    · simp [changeFirst, found, keeps]
    · simp [changeFirst, found, ih]

/-- The element that a search finds is the one that a change changes, where it stands. -/
theorem exists_changeFirst_of_find? {xs : List β} {x : β} (found : xs.find? p = some x) :
    ∃ front back, xs = front ++ x :: back ∧ changeFirst p f xs = front ++ f x :: back := by
  induction xs with
  | nil => simp at found
  | cons first rest ih =>
    by_cases chosen : p first = true
    · obtain rfl : first = x := by simpa [chosen] using found
      exact ⟨[], rest, rfl, by simp [changeFirst, chosen]⟩
    · obtain ⟨front, back, whole, changed⟩ := ih (by simpa [List.find?_cons, chosen] using found)
      exact ⟨first :: front, back, by simp [whole], by simp [changeFirst, chosen, changed]⟩

/-- Changes of the first elements of two kinds may change places, when no element is of both and both kinds stay. -/
theorem changeFirst_comm {q : β → Bool} {g : β → β} (apart : ∀ x, p x = true → q x = false)
    (keeps : ∀ x, q (f x) = q x) (keeps' : ∀ x, p (g x) = p x) (xs : List β) :
    changeFirst q g (changeFirst p f xs) = changeFirst p f (changeFirst q g xs) := by
  induction xs with
  | nil => rfl
  | cons first rest ih =>
    by_cases found : p first = true
    · simp [changeFirst, found, keeps, apart first found]
    · by_cases other : q first = true
      · simp [changeFirst, found, keeps', other]
      · simp [changeFirst, found, other, ih]

theorem find?_eraseP_of_disjoint {q : β → Bool} (apart : ∀ x, p x = true → q x = false) (xs : List β) :
    (xs.eraseP p).find? q = xs.find? q := by
  induction xs with
  | nil => rfl
  | cons first rest ih =>
    by_cases found : p first = true
    · simp [found, apart first found]
    · simp [found, List.find?_cons, ih]

/-- Of a kind that occurs once at most there is one element. -/
theorem eq_of_countP_le_one {xs : List β} (few : xs.countP p ≤ 1) {x y : β} (member : x ∈ xs) (member' : y ∈ xs)
    (chosen : p x = true) (chosen' : p y = true) : x = y := by
  have mine : x ∈ xs.filter p := List.mem_filter.mpr ⟨member, chosen⟩
  have mine' : y ∈ xs.filter p := List.mem_filter.mpr ⟨member', chosen'⟩
  rw [List.countP_eq_length_filter] at few
  obtain ⟨z, all⟩ := List.length_eq_one_iff.mp (Nat.le_antisymm few (List.length_pos_of_mem mine))
  rw [all, List.mem_singleton] at mine mine'
  exact mine.trans mine'.symm

/-- Where the elements have keys of their own, a search for a key finds the element with it. -/
theorem find?_eq_some_iff_key [DecidableEq γ] {key : β → γ} {xs : List β} (apart : (xs.map key).Nodup)
    {k : γ} {x : β} : xs.find? (fun y => key y = k) = some x ↔ x ∈ xs ∧ key x = k := by
  induction xs with
  | nil => simp
  | cons first rest ih =>
    obtain ⟨unlike, others⟩ := List.nodup_cons.mp apart
    by_cases found : key first = k
    · simp only [List.find?_cons, found, decide_true, Option.some.injEq, List.mem_cons]
      constructor
      · rintro rfl
        exact ⟨.inl rfl, found⟩
      · rintro ⟨rfl | later, same⟩
        · rfl
        · exact absurd (found.trans same.symm ▸ List.mem_map_of_mem later) unlike
    · simp only [List.find?_cons, found, decide_false, ih others, List.mem_cons]
      constructor
      · rintro ⟨later, same⟩
        exact ⟨.inr later, same⟩
      · rintro ⟨rfl | later, same⟩
        · exact absurd same found
        · exact ⟨later, same⟩

/-- Where the elements have keys of their own, changing the first one of a key changes every one. -/
theorem changeFirst_eq_map [DecidableEq γ] {key : β → γ} {xs : List β} (apart : (xs.map key).Nodup) (k : γ) :
    changeFirst (fun x => key x = k) f xs = xs.map fun x => if key x = k then f x else x := by
  induction xs with
  | nil => rfl
  | cons first rest ih =>
    obtain ⟨unlike, others⟩ := List.nodup_cons.mp apart
    unfold changeFirst
    by_cases found : key first = k
    · have none : ∀ x ∈ rest, (if key x = k then f x else x) = x := by
        intro x member
        rw [if_neg]
        rintro rfl
        exact unlike (found ▸ List.mem_map_of_mem member)
      simp [found, List.map_congr_left none]
    · simp [found, ih others]

/-- Where the elements have keys of their own, erasing the first one of a key erases every one. -/
theorem eraseP_eq_filter_key [DecidableEq γ] {key : β → γ} {xs : List β} (apart : (xs.map key).Nodup) (k : γ) :
    xs.eraseP (fun x => key x = k) = xs.filter fun x => key x ≠ k := by
  induction xs with
  | nil => rfl
  | cons first rest ih =>
    obtain ⟨unlike, others⟩ := List.nodup_cons.mp apart
    by_cases found : key first = k
    · have none : ∀ x ∈ rest, decide (key x ≠ k) = true := by
        intro x member
        refine decide_eq_true fun same => unlike ?_
        exact found.trans same.symm ▸ List.mem_map_of_mem member
      simp only [List.eraseP_cons, List.filter_cons, found, decide_true, cond_true, ne_eq, not_true_eq_false,
        decide_false, Bool.false_eq_true, if_false]
      exact (List.filter_eq_self.mpr none).symm
    · simp [found, ih others]

end

/-- A list in the order of keys with an element put in, in the place of the one with its key if there is one. -/
def insertByKey {β : Type} (key : β → String) (x : β) : List β → List β
  | [] => [x]
  | first :: rest =>
    if key x < key first then x :: first :: rest
    else if key x = key first then x :: rest
    else first :: insertByKey key x rest

section
variable {β : Type} {key : β → String}

theorem find?_insertByKey (x : β) (xs : List β) (k : String) :
    (insertByKey key x xs).find? (fun y => key y = k) = if key x = k then some x else xs.find? fun y => key y = k := by
  induction xs with
  | nil => by_cases own : key x = k <;> simp [insertByKey, own]
  | cons first rest ih =>
    unfold insertByKey
    by_cases before : key x < key first
    · rw [if_pos before, List.find?_cons]
      by_cases own : key x = k <;> simp [own]
    · rw [if_neg before]
      by_cases same : key x = key first
      · rw [if_pos same, List.find?_cons, List.find?_cons, ← same]
        by_cases own : key x = k <;> simp [own]
      · rw [if_neg same, List.find?_cons, List.find?_cons, ih]
        by_cases found : key first = k
        · have other : key x ≠ k := fun own => same (own.trans found.symm)
          simp [found, other]
        · simp [found]

/-- Elements with other keys stay as they are, in their order. -/
theorem filter_insertByKey (x : β) (xs : List β) :
    (insertByKey key x xs).filter (fun y => key y ≠ key x) = xs.filter fun y => key y ≠ key x := by
  induction xs with
  | nil => simp [insertByKey]
  | cons first rest ih =>
    unfold insertByKey
    by_cases before : key x < key first
    · rw [if_pos before, List.filter_cons_of_neg (by simp)]
    · rw [if_neg before]
      by_cases same : key x = key first
      · rw [if_pos same, List.filter_cons_of_neg (by simp), List.filter_cons_of_neg (by simp [same])]
      · rw [if_neg same, List.filter_cons, List.filter_cons, ih]

end

end DesktopShell
