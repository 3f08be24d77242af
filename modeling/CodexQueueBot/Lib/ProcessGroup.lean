import CodexQueueBot.Lib.Runs
import Mathlib.Data.Int.Notation
import Mathlib.Data.List.Basic

/-!
# Process groups

A program starts a process, which becomes the leader of a group, with a pipe for its input and one
for its output. The leader and its descendants fork, leave the group, close their ends of the pipes
and exit as they like; a child is born into the group of its parent, with the ends that its parent
holds. A signal that cannot be caught kills all that are in the group at that moment.

The program waits for the leader to exit and for the output to be closed. It may also wait for the
input: for what it still has to write, as long as somebody could read it. A process that keeps it
waiting is `Busy`, and it has `Escaped` if it has left the group. A kill leaves exactly the escaped
ones (`busy_kill_iff`), and from then on every process is outside the group.
-/

set_option autoImplicit false
set_option relaxedAutoImplicit false

namespace CodexQueueBot.Lib

/-- A process: whether it is in the group and holds the output and the input, and its exit status
when it has exited. -/
structure Member where
  grouped : Bool := true
  holds : Bool := true
  reads : Bool := true
  status : Option ℤ := none
  deriving DecidableEq, Repr

/-- The processes in the order in which they were born; the first is the leader. -/
abbrev Family := List Member

/-- What a process does. -/
inductive ProcessAct
  | fork (self : ℕ)
  | leave (self : ℕ)
  | close (self : ℕ)
  | shut (self : ℕ)
  | exit (self : ℕ) (status : ℤ)
  deriving DecidableEq, Repr

namespace Family

/-- A change of a process that runs. -/
def update (family : Family) (self : ℕ) (change : Member → Member) : Option Family := do
  let member ← family[self]?
  if member.status.isSome then none else some (family.set self (change member))

/-- What an act makes of the processes. -/
def act (family : Family) : ProcessAct → Option Family
  | .fork self => do
    let member ← family[self]?
    if member.status.isSome then none else some (family ++ [member])
  | .leave self => family.update self fun member ↦ { member with grouped := false }
  | .close self => family.update self fun member ↦ { member with holds := false }
  | .shut self => family.update self fun member ↦ { member with reads := false }
  | .exit self status => family.update self fun member ↦ { member with status := some status }

/-- A signal to the group that cannot be caught. -/
def kill (family : Family) : Family :=
  family.map fun member ↦
    if member.grouped ∧ member.status = none then { member with status := some (-1) } else member

/-- Some process runs. -/
def Alive (family : Family) : Prop :=
  ∃ member ∈ family, member.status = none

/-- Some process runs that can write to the output. -/
def Prints (family : Family) : Prop :=
  ∃ member ∈ family, member.status = none ∧ member.holds

/-- Some process runs that can read the input. -/
def Reads (family : Family) : Prop :=
  ∃ member ∈ family, member.status = none ∧ member.reads

instance (family : Family) : Decidable family.Alive :=
  inferInstanceAs (Decidable (∃ member ∈ family, _))

instance (family : Family) : Decidable family.Prints :=
  inferInstanceAs (Decidable (∃ member ∈ family, _))

instance (family : Family) : Decidable family.Reads :=
  inferInstanceAs (Decidable (∃ member ∈ family, _))

/-- A process that is waited for: it runs, and is the leader, holds the output, or holds the input
while the input is waited for. -/
def Keeps (input : Prop) (self : ℕ) (member : Member) : Prop :=
  member.status = none ∧ (self = 0 ∨ member.holds ∨ input ∧ member.reads)

/-- Some process is waited for. -/
def Busy (family : Family) (input : Prop) : Prop :=
  ∃ self member, family[self]? = some member ∧ Keeps input self member

/-- Some process that is waited for has left the group. -/
def Escaped (family : Family) (input : Prop) : Prop :=
  ∃ self member, family[self]? = some member ∧ Keeps input self member ∧ member.grouped = false

instance (input : Prop) [Decidable input] (self : ℕ) (member : Member) :
    Decidable (Keeps input self member) :=
  inferInstanceAs (Decidable (member.status = none ∧ _))

/-- Those who are waited for are among the processes. -/
theorem busy_iff {family : Family} {input : Prop} :
    family.Busy input ↔ ∃ self : Fin family.length, Keeps input self family[self] := by
  constructor
  · rintro ⟨self, member, hmember, hkeeps⟩
    obtain ⟨hlt, rfl⟩ := List.getElem?_eq_some_iff.mp hmember
    exact ⟨⟨self, hlt⟩, hkeeps⟩
  · rintro ⟨self, hkeeps⟩
    exact ⟨self, family[self], List.getElem?_eq_getElem self.isLt, hkeeps⟩

instance (family : Family) (input : Prop) [Decidable input] : Decidable (family.Busy input) :=
  decidable_of_iff _ busy_iff.symm

/-- No process that runs is in the group. -/
def Scattered (family : Family) : Prop :=
  ∀ member ∈ family, member.status = none → member.grouped = false

/-- The exit status of the leader. -/
def leaderStatus (family : Family) : Option ℤ := do
  (← family.head?).status

variable {family family' : Family} {input input' : Prop}

/-- Whoever is waited for without the input is waited for with it. -/
theorem Busy.mono (h : family.Busy input) (himp : input → input') : family.Busy input' := by
  obtain ⟨self, member, hmember, hstatus, hkeeps⟩ := h
  exact ⟨self, member, hmember, hstatus, hkeeps.imp_right (Or.imp_right (And.imp_left himp))⟩

/-- Whoever is waited for because of the input only reads it. -/
theorem Busy.reads (h : family.Busy input) (hnot : ¬ family.Busy input') :
    ¬ input' ∧ family.Reads := by
  obtain ⟨self, member, hmember, hstatus, hleader | hholds | ⟨hinput, hreads⟩⟩ := h
  · exact absurd ⟨self, member, hmember, hstatus, Or.inl hleader⟩ hnot
  · exact absurd ⟨self, member, hmember, hstatus, Or.inr (Or.inl hholds)⟩ hnot
  · refine ⟨fun hinput' ↦ ?_, member, List.mem_of_getElem? hmember, hstatus, hreads⟩
    exact hnot ⟨self, member, hmember, hstatus, Or.inr (Or.inr ⟨hinput', hreads⟩)⟩

/-- Whoever has escaped is waited for. -/
theorem Escaped.busy (h : family.Escaped input) : family.Busy input := by
  obtain ⟨self, member, hmember, hkeeps, -⟩ := h
  exact ⟨self, member, hmember, hkeeps⟩

/-- A leader that has just been started has not escaped. -/
theorem not_escaped_leader : ¬ Escaped [{}] input := by
  rintro ⟨self, member, hmember, -, hout⟩
  obtain rfl := List.mem_singleton.mp (List.mem_of_getElem? hmember)
  cases hout

/-! ### Acts -/

/-- An act adds a copy of a process that runs, or changes one: it keeps its place, and returns
neither to the group nor to the pipes. -/
theorem act_cases {act : ProcessAct} (h : family.act act = some family') :
    (∃ (self : ℕ) (member : Member), family[self]? = some member ∧ member.status = none ∧
      family' = family ++ [member]) ∨
    ∃ (self : ℕ) (member new : Member), family[self]? = some member ∧ member.status = none ∧
      family' = family.set self new ∧ (new.grouped → member.grouped) ∧
      (new.holds → member.holds) ∧ (new.reads → member.reads) := by
  have hupdate : ∀ {self : ℕ} {change : Member → Member}, family.update self change = some family' →
      (∀ member, (change member).grouped → member.grouped) →
      (∀ member, (change member).holds → member.holds) →
      (∀ member, (change member).reads → member.reads) →
      ∃ (self : ℕ) (member new : Member), family[self]? = some member ∧ member.status = none ∧
        family' = family.set self new ∧ (new.grouped → member.grouped) ∧
        (new.holds → member.holds) ∧ (new.reads → member.reads) := by
    intro self change hchange hgrouped hholds hreads
    obtain ⟨member, hmember, hset⟩ := Option.bind_eq_some_iff.mp hchange
    split_ifs at hset with hstatus
    exact ⟨self, member, change member, hmember, by simpa using hstatus,
      (Option.some.inj hset).symm, hgrouped member, hholds member, hreads member⟩
  cases act with
  | fork self =>
    obtain ⟨member, hmember, hadd⟩ := Option.bind_eq_some_iff.mp h
    split_ifs at hadd with hstatus
    exact .inl ⟨self, member, hmember, by simpa using hstatus, (Option.some.inj hadd).symm⟩
  | leave self | close self | shut self | exit self status =>
    exact .inr (hupdate h (by simp) (by simp) (by simp))

/-- When nothing is waited for, nothing will be. -/
theorem not_busy_act {act : ProcessAct} (hidle : ¬ family.Busy input)
    (h : family.act act = some family') : ¬ family'.Busy input := by
  rintro ⟨self, member, hmember, hstatus, hkeeps⟩
  rcases act_cases h with ⟨parent, parentMember, hparent, hruns, rfl⟩ |
    ⟨changed, old, new, hold, hruns, rfl, -, hholds, hreads⟩
  · rcases Nat.lt_or_ge self family.length with hlt | hge
    · rw [List.getElem?_append_left hlt] at hmember
      exact hidle ⟨self, member, hmember, hstatus, hkeeps⟩
    · -- A child is not the leader.
      rw [List.getElem?_append_right hge, List.getElem?_singleton] at hmember
      split_ifs at hmember with hself
      obtain rfl := Option.some.inj hmember
      have hlength := (List.getElem?_eq_some_iff.mp hparent).1
      refine hidle ⟨parent, _, hparent, hstatus, hkeeps.imp_left fun hzero ↦ ?_⟩
      omega
  · rw [List.getElem?_set] at hmember
    split_ifs at hmember with hself hlt
    · obtain rfl := Option.some.inj hmember
      subst hself
      exact hidle ⟨changed, old, hold, hruns,
        hkeeps.imp_right (Or.imp hholds (And.imp_right hreads))⟩
    · exact hidle ⟨self, member, hmember, hstatus, hkeeps⟩

/-- Processes outside the group stay there, and so do their children. -/
theorem Scattered.act {act : ProcessAct} (hscattered : family.Scattered)
    (h : family.act act = some family') : family'.Scattered := by
  intro member hmem hstatus
  rcases act_cases h with ⟨parent, parentMember, hparent, hruns, rfl⟩ |
    ⟨changed, old, new, hold, hruns, rfl, hgrouped, -⟩
  · rcases List.mem_append.mp hmem with hmem | hmem
    · exact hscattered member hmem hstatus
    · obtain rfl := List.mem_singleton.mp hmem
      exact hscattered _ (List.mem_of_getElem? hparent) hstatus
  · rcases List.mem_or_eq_of_mem_set hmem with hmem | rfl
    · exact hscattered member hmem hstatus
    · have hout := hscattered old (List.mem_of_getElem? hold) hruns
      by_contra hin
      rw [Bool.not_eq_false] at hin
      rw [hgrouped hin] at hout
      cases hout

/-- The leader is there, and its exit status is final. -/
theorem leaderStatus_act {act : ProcessAct} {status : ℤ}
    (hstatus : family.leaderStatus = some status) (h : family.act act = some family') :
    family'.leaderStatus = some status := by
  obtain ⟨leader, hleader, hexit⟩ := Option.bind_eq_some_iff.mp hstatus
  rw [List.head?_eq_getElem?] at hleader
  have hlength := (List.getElem?_eq_some_iff.mp hleader).1
  suffices hkeep : family'[0]? = some leader by
    rw [leaderStatus, List.head?_eq_getElem?, hkeep]
    exact hexit
  rcases act_cases h with ⟨parent, parentMember, hparent, hruns, rfl⟩ |
    ⟨changed, old, new, hold, hruns, rfl, -, -⟩
  · rwa [List.getElem?_append_left hlength]
  · rw [List.getElem?_set, if_neg]
    · exact hleader
    · rintro rfl
      rw [hold] at hleader
      obtain rfl := Option.some.inj hleader
      rw [hruns] at hexit
      cases hexit

/-! ### The kill -/

/-- After a kill, no process that runs is in the group. -/
theorem scattered_kill (family : Family) : family.kill.Scattered := by
  intro member hmem hstatus
  obtain ⟨old, -, rfl⟩ := List.mem_map.mp hmem
  split_ifs at hstatus ⊢ with hgrouped
  rw [not_and_or] at hgrouped
  rcases hgrouped with hout | hexited
  · simpa using hout
  · exact absurd hstatus hexited

/-- A kill leaves those that have escaped. -/
theorem busy_kill_iff : family.kill.Busy input ↔ family.Escaped input := by
  constructor
  · rintro ⟨self, member, hmember, hstatus, hkeeps⟩
    rw [kill, List.getElem?_map] at hmember
    obtain ⟨old, hold, rfl⟩ := Option.map_eq_some_iff.mp hmember
    split_ifs at hstatus hkeeps with hgrouped
    rw [not_and_or] at hgrouped
    rcases hgrouped with hout | hexited
    · exact ⟨self, old, hold, ⟨hstatus, hkeeps⟩, by simpa using hout⟩
    · exact absurd hstatus hexited
  · rintro ⟨self, member, hmember, hkeeps, hout⟩
    refine ⟨self, member, ?_, hkeeps⟩
    rw [kill, List.getElem?_map, hmember, Option.map_some, if_neg]
    simp [hout]

/-- A kill leaves the escaped ones outside the group. -/
theorem escaped_kill_iff : family.kill.Escaped input ↔ family.Escaped input := by
  constructor
  · exact fun h ↦ busy_kill_iff.mp h.busy
  · rintro h
    obtain ⟨self, member, hmember, hkeeps⟩ := busy_kill_iff.mpr h
    exact ⟨self, member, hmember, hkeeps,
      scattered_kill family member (List.mem_of_getElem? hmember) hkeeps.1⟩

/-- The exit status of a leader that has exited survives a kill. -/
theorem leaderStatus_kill {status : ℤ} (hstatus : family.leaderStatus = some status) :
    family.kill.leaderStatus = some status := by
  obtain ⟨leader, hleader, hexit⟩ := Option.bind_eq_some_iff.mp hstatus
  rw [leaderStatus, kill, List.head?_map, hleader, Option.map_some]
  refine Option.bind_eq_some_iff.mpr ⟨leader, ?_, hexit⟩
  rw [if_neg]
  rintro ⟨-, hruns⟩
  rw [hruns] at hexit
  cases hexit

/-- Outside the group, whoever is waited for has escaped. -/
theorem Scattered.escaped_of_busy (hscattered : family.Scattered) (h : family.Busy input) :
    family.Escaped input := by
  obtain ⟨self, member, hmember, hkeeps⟩ := h
  exact ⟨self, member, hmember, hkeeps,
    hscattered member (List.mem_of_getElem? hmember) hkeeps.1⟩

/-- When nothing is waited for, the leader has exited. -/
theorem leaderStatus_of_not_busy (hleader : family ≠ []) (h : ¬ family.Busy input) :
    ∃ status, family.leaderStatus = some status := by
  obtain ⟨leader, rest, rfl⟩ := List.exists_cons_of_ne_nil hleader
  cases hstatus : leader.status with
  | none => exact absurd ⟨0, leader, rfl, hstatus, .inl rfl⟩ h
  | some status => exact ⟨status, hstatus⟩

end Family

end CodexQueueBot.Lib
