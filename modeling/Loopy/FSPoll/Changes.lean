import Loopy.FSPoll.Passes
import Loopy.Lib.Bits

/-!
# Which changes are reported

What should be reported for two successive observations of a file is a matter of the two records
alone; `detectChanges` works on what the entry remembers, and compares only the seconds of the
modification time. `reported_iff` says that a modification within one second is the only change
that is not reported as it should be.
-/

namespace Loopy.FSPoll

open Loopy.Lib
open Function (update update_of_ne update_self)

/-! ## The specification -/

/-- What can change. -/
inductive Aspect
  | modified
  | size
  | deleted
  | created
  | permissions
  | owner
  | type
deriving DecidableEq, Repr

namespace Aspect

/-- The aspects. -/
def all : List Aspect := [modified, size, deleted, created, permissions, owner, type]

/-- The event of an aspect. -/
def event : Aspect → BitVec 32
  | modified => LOOPY_FSPOLL_MODIFIED
  | size => LOOPY_FSPOLL_SIZE
  | deleted => LOOPY_FSPOLL_DELETED
  | created => LOOPY_FSPOLL_CREATED
  | permissions => LOOPY_FSPOLL_PERMISSIONS
  | owner => LOOPY_FSPOLL_OWNER
  | type => LOOPY_FSPOLL_TYPE

theorem mem_all : ∀ a : Aspect, a ∈ all := by
  intro a
  cases a <;> decide

end Aspect

/-- An aspect of a file that exists is another one. -/
def Stat.differs (prev curr : Stat) : Aspect → Bool
  | .modified => prev.st_mtime ≠ curr.st_mtime || prev.mtimeNsec ≠ curr.mtimeNsec
  | .size => prev.st_size ≠ curr.st_size
  | .permissions => prev.st_mode &&& permissionBits ≠ curr.st_mode &&& permissionBits
  | .owner => prev.st_uid ≠ curr.st_uid || prev.st_gid ≠ curr.st_gid
  | .type => prev.st_mode &&& S_IFMT ≠ curr.st_mode &&& S_IFMT
  | .deleted | .created => false

/-- An aspect has changed between two observations. -/
def changed (prev curr : Option Stat) (a : Aspect) : Bool :=
  match prev, curr with
  | some prev, some curr => prev.differs curr a
  | none, some _ => a = .created
  | some _, none => a = .deleted
  | none, none => false

/-- The entry is for changes of an aspect. -/
def LoopyFSPollEntry.subscribed (e : LoopyFSPollEntry) (a : Aspect) : Bool :=
  e.events &&& a.event ≠ 0#32

/-- The events of some aspects. -/
def eventsOf (p : Aspect → Bool) : BitVec 32 :=
  Aspect.all.foldl (fun events a => if p a then events ||| a.event else events) 0#32

/-- The aspects that are to be reported. -/
def LoopyFSPollEntry.relevant (e : LoopyFSPollEntry) (prev curr : Option Stat) (a : Aspect) : Bool :=
  changed prev curr a && e.subscribed a

/-- The callback that is due for two successive observations. -/
def LoopyFSPollEntry.due (e : LoopyFSPollEntry) (prev curr : Option Stat) :
    Option LoopyFSPollInfo :=
  if Aspect.all.any (e.relevant prev curr) then
    some
      { pollId := e.id
        events := eventsOf (e.relevant prev curr)
        path := e.path
        prevStat := prev
        currStat := curr
        userData := e.userData }
  else none

/-- Every examination of every entry has led to the callback that was due. -/
def ReportLaw (s : System) : Prop :=
  ∀ n < s.allocated,
    s.reports n = List.zipWith (s.entry n).due (s.seen n) (s.seen n).tail

/-- Callbacks do not modify the poller. -/
def Quiet (s : System) : Action → Prop
  | .start .. | .stop _ | .stopAll => s.pc = .user
  | _ => True

/-- The file was modified within one second of its last modification. -/
def Overlooked (e : LoopyFSPollEntry) : Option Stat → Prop
  | some newStat =>
    e.present = true ∧ e.subscribed .modified = true ∧ e.prevStat.st_mtime = newStat.st_mtime ∧
      e.prevStat.mtimeNsec ≠ newStat.mtimeNsec
  | none => False

/-- The condition on an examination. -/
def NoticedAt (s : System) (newStat : Option Stat) : Pc → Prop
  | .walk (some n) => ¬ Overlooked (s.entry n) newStat
  | _ => True

/-- The condition on a step: no modification is overlooked. -/
def Noticed (s : System) : Action → Prop
  | .examine newStat => NoticedAt s newStat s.pc
  | _ => True

instance (s : System) : ∀ a, Decidable (Quiet s a)
  | .start .. | .stop _ | .stopAll => inferInstanceAs (Decidable (s.pc = .user))
  | .timer | .examine _ | .ret | .finish => inferInstanceAs (Decidable True)

instance (e : LoopyFSPollEntry) : ∀ newStat, Decidable (Overlooked e newStat)
  | some _ => inferInstanceAs (Decidable (_ ∧ _))
  | none => inferInstanceAs (Decidable False)

instance (s : System) (newStat : Option Stat) : ∀ pc, Decidable (NoticedAt s newStat pc)
  | .walk (some n) => inferInstanceAs (Decidable (¬ Overlooked (s.entry n) newStat))
  | .walk none | .user | .callback .. | .crashed => inferInstanceAs (Decidable True)

instance (s : System) : ∀ a, Decidable (Noticed s a)
  | .examine newStat => inferInstanceAs (Decidable (NoticedAt s newStat s.pc))
  | .start .. | .stop _ | .stopAll | .timer | .ret | .finish => inferInstanceAs (Decidable True)

/-! ## Events as sets -/

theorem event_and (a b : Aspect) : a.event &&& b.event ≠ 0#32 ↔ a = b := by
  cases a <;> cases b <;> decide

theorem foldl_events_and (p : Aspect → Bool) (as : List Aspect) (m f : BitVec 32) :
    f &&& as.foldl (fun events a => if p a then events ||| a.event else events) m ≠ 0#32 ↔
      f &&& m ≠ 0#32 ∨ ∃ a ∈ as, p a = true ∧ f &&& a.event ≠ 0#32 := by
  induction as generalizing m with
  | nil => simp
  | cons a as ih =>
    rw [List.foldl_cons, ih]
    simp only [List.mem_cons, exists_eq_or_imp]
    by_cases hp : p a = true
    · rw [if_pos hp, and_or_ne_zero, or_assoc, and_iff_right hp]
    · rw [if_neg hp]
      simp only [hp, false_and, false_or, Bool.false_eq_true]

/-- The event of an aspect is among them exactly if the aspect is. -/
theorem eventsOf_and (p : Aspect → Bool) (a : Aspect) :
    a.event &&& eventsOf p ≠ 0#32 ↔ p a = true := by
  unfold eventsOf
  rw [foldl_events_and, BitVec.and_zero]
  constructor
  · rintro (hzero | ⟨b, -, hp, hb⟩)
    · exact absurd rfl hzero
    · rw [(event_and a b).mp hb]
      exact hp
  · intro hp
    exact .inr ⟨a, a.mem_all, hp, (event_and a a).mpr rfl⟩

theorem eventsOf_injective {p q : Aspect → Bool} (h : eventsOf p = eventsOf q) : p = q := by
  funext a
  rw [Bool.eq_iff_iff, ← eventsOf_and, ← eventsOf_and, h]

theorem eventsOf_ne_zero (p : Aspect → Bool) :
    eventsOf p ≠ 0#32 ↔ Aspect.all.any p = true := by
  have hzero : eventsOf (fun _ => false) = 0#32 := rfl
  rw [List.any_eq_true]
  constructor
  · intro hne
    by_contra hnone
    refine hne ?_
    have hp : p = fun _ => false := by
      funext a
      exact Bool.eq_false_iff.mpr fun ha => hnone ⟨a, a.mem_all, ha⟩
    rw [hp, hzero]
  · rintro ⟨a, -, ha⟩ heq
    have hne := (eventsOf_and p a).mpr ha
    rw [heq, BitVec.and_zero] at hne
    exact hne rfl

/-- Every event is one bit, which is in a mask or not. -/
theorem event_and_events (a : Aspect) (events : BitVec 32) :
    a.event &&& events = if events &&& a.event ≠ 0#32 then a.event else 0#32 := by
  have hbit : ∃ i, a.event = BitVec.twoPow 32 i := by
    cases a
    · exact ⟨0, rfl⟩
    · exact ⟨1, rfl⟩
    · exact ⟨2, rfl⟩
    · exact ⟨3, rfl⟩
    · exact ⟨4, rfl⟩
    · exact ⟨5, rfl⟩
    · exact ⟨6, rfl⟩
  obtain ⟨i, hi⟩ := hbit
  rw [BitVec.and_comm events]
  by_cases hzero : a.event &&& events = 0#32
  · rw [if_neg (not_not.mpr hzero), hzero]
  · rw [if_pos hzero]
    rw [hi, BitVec.twoPow_and] at hzero ⊢
    split at hzero
    next hlsb => rw [if_pos hlsb]
    next => exact absurd rfl hzero

theorem foldl_events_filter (p : Aspect → Bool) (events : BitVec 32) (as : List Aspect)
    (m : BitVec 32) :
    as.foldl (fun x a => if p a then x ||| a.event else x) m &&& events =
      as.foldl (fun x a => if (p a && decide (events &&& a.event ≠ 0#32)) then x ||| a.event else x)
        (m &&& events) := by
  induction as generalizing m with
  | nil => rfl
  | cons a as ih =>
    rw [List.foldl_cons, List.foldl_cons, ih]
    congr 1
    cases p a with
    | false => rfl
    | true =>
      rw [if_pos rfl, BitVec.and_or_distrib_right, event_and_events, Bool.true_and]
      by_cases hsub : events &&& a.event ≠ 0#32
      · rw [if_pos hsub, if_pos (decide_eq_true hsub)]
      · rw [if_neg hsub, BitVec.or_zero, if_neg (by simpa using hsub)]

/-- The events that an entry is for. -/
theorem eventsOf_subscribed (p : Aspect → Bool) (e : LoopyFSPollEntry) :
    eventsOf p &&& e.events = eventsOf fun a => p a && e.subscribed a := by
  unfold eventsOf
  rw [foldl_events_filter, BitVec.zero_and]
  rfl

/-! ## What the code detects -/

/-- The observation that an entry remembers. -/
def LoopyFSPollEntry.remembered (e : LoopyFSPollEntry) : Option Stat :=
  if e.present then some e.prevStat else none

/-- What the code compares: of the modification time only the seconds. -/
def compared (prev curr : Option Stat) (a : Aspect) : Bool :=
  match a, prev, curr with
  | .modified, some prev, some curr => prev.st_mtime ≠ curr.st_mtime
  | a, prev, curr => changed prev curr a

theorem detectChanges_eq (e : LoopyFSPollEntry) (newStat : Option Stat) :
    detectChanges e newStat = eventsOf (compared e.remembered newStat) := by
  unfold detectChanges LoopyFSPollEntry.remembered
  cases e.present with
  | false =>
    cases newStat with
    | none => rfl
    | some newStat => rfl
  | true =>
    cases newStat with
    | none => rfl
    | some newStat =>
      simp [eventsOf, Aspect.all, compared, changed, Stat.differs, Aspect.event, LOOPY_FSPOLL_NONE]

theorem report_eq {e : LoopyFSPollEntry} (hcb : e.cb ≠ 0) (newStat : Option Stat) :
    report e newStat =
      if Aspect.all.any fun a => compared e.remembered newStat a && e.subscribed a then
        some
          { pollId := e.id
            events := eventsOf fun a => compared e.remembered newStat a && e.subscribed a
            path := e.path
            prevStat := e.remembered
            currStat := newStat
            userData := e.userData }
      else none := by
  unfold report
  dsimp only
  rw [detectChanges_eq, eventsOf_subscribed]
  by_cases hany : (Aspect.all.any fun a => compared e.remembered newStat a && e.subscribed a) = true
  · rw [if_pos ⟨(eventsOf_ne_zero _).mpr hany, hcb⟩, if_pos hany]
    rfl
  · rw [if_neg fun h => hany ((eventsOf_ne_zero _).mp h.1), if_neg hany]

/-- Only a modification within one second is not seen. -/
theorem compared_eq_iff (e : LoopyFSPollEntry) (newStat : Option Stat) :
    (∀ a, (compared e.remembered newStat a && e.subscribed a) = e.relevant e.remembered newStat a) ↔
      ¬ Overlooked e newStat := by
  have hother : ∀ a, a ≠ .modified →
      (compared e.remembered newStat a && e.subscribed a) = e.relevant e.remembered newStat a := by
    intro a ha
    cases a with
    | modified => exact absurd rfl ha
    | size | deleted | created | permissions | owner | type => rfl
  have hmodified : (compared e.remembered newStat .modified && e.subscribed .modified) =
      e.relevant e.remembered newStat .modified ↔ ¬ Overlooked e newStat := by
    unfold LoopyFSPollEntry.relevant LoopyFSPollEntry.remembered Overlooked
    cases hpresent : e.present with
    | false => cases newStat <;> simp [compared, changed]
    | true =>
      cases newStat with
      | none => simp [compared, changed]
      | some newStat =>
        by_cases hsec : e.prevStat.st_mtime = newStat.st_mtime
        · cases e.subscribed .modified <;> simp [compared, changed, Stat.differs, hsec]
        · simp [compared, changed, Stat.differs, hsec]
  constructor
  · intro hall
    exact hmodified.mp (hall .modified)
  · intro hnot a
    by_cases ha : a = .modified
    · rw [ha]
      exact hmodified.mpr hnot
    · exact hother a ha

/-- **One examination**: the callback is what is due, unless a modification is overlooked. -/
theorem report_eq_due {e : LoopyFSPollEntry} (hcb : e.cb ≠ 0) (newStat : Option Stat) :
    report e newStat = e.due e.remembered newStat ↔ ¬ Overlooked e newStat := by
  rw [← compared_eq_iff, report_eq hcb]
  unfold LoopyFSPollEntry.due
  constructor
  · intro heq
    have hsame : (fun a => compared e.remembered newStat a && e.subscribed a) =
        e.relevant e.remembered newStat := by
      refine eventsOf_injective ?_
      split at heq
      next =>
        split at heq
        next => exact congrArg LoopyFSPollInfo.events (Option.some.inj heq)
        next => cases heq
      next hany =>
        split at heq
        next => cases heq
        next hany' =>
          rw [not_not.mp (mt (eventsOf_ne_zero _).mp hany),
            not_not.mp (mt (eventsOf_ne_zero _).mp hany')]
    exact fun a => congrFun hsame a
  · intro hall
    rw [show (fun a => compared e.remembered newStat a && e.subscribed a) =
      e.relevant e.remembered newStat from funext hall]

/-! ## Runs -/

theorem zipWith_tail_concat {α β : Type} (f : α → α → β) (l : List α) (a b : α) :
    List.zipWith f (l ++ [a] ++ [b]) (l ++ [a] ++ [b]).tail =
      List.zipWith f (l ++ [a]) (l ++ [a]).tail ++ [f a b] := by
  induction l with
  | nil => rfl
  | cons c l ih =>
    cases l with
    | nil => rfl
    | cons d l => exact congrArg (f c d :: ·) ih

/-- What an entry remembers is what was seen last; in its callback it is what was seen before. -/
structure Remembers (s : System) (n : ℕ) : Prop where
  cb : (s.entry n).cb ≠ 0
  seen : (∀ newStat, s.pc ≠ .callback n newStat) → ∃ l, s.seen n = l ++ [(s.entry n).remembered]
  callback : ∀ newStat, s.pc = .callback n newStat →
    ∃ l, s.seen n = l ++ [(s.entry n).remembered] ++ [newStat]

/-- What holds between the steps of a run in which callbacks do not modify the poller. -/
structure ChangeInv (s : System) : Prop where
  inv : ∃ l todo, FSPollInv s l todo
  remembers : ∀ n, s.live n = true → Remembers s n

/-- Nothing was seen, and no entry is new. -/
structure SameLog (s t : System) : Prop where
  entry : t.entry = s.entry
  seen : t.seen = s.seen
  reports : t.reports = s.reports
  allocated : t.allocated = s.allocated
  live : ∀ n, t.live n = true → s.live n = true

namespace SameLog

variable {s t u : System} {n : ℕ}

theorem trans (h : SameLog s t) (h' : SameLog t u) : SameLog s u where
  entry := h'.entry.trans h.entry
  seen := h'.seen.trans h.seen
  reports := h'.reports.trans h.reports
  allocated := h'.allocated.trans h.allocated
  live n hn := h.live n (h'.live n hn)

theorem law (h : SameLog s t) : ReportLaw t ↔ ReportLaw s := by
  unfold ReportLaw
  rw [h.entry, h.seen, h.reports, h.allocated]

theorem remembers (h : SameLog s t) (hs : Remembers s n) (hpc : ∀ newStat,
    t.pc = .callback n newStat ↔ s.pc = .callback n newStat) : Remembers t n where
  cb := by
    rw [h.entry]
    exact hs.cb
  seen hnot := by
    rw [h.seen, h.entry]
    exact hs.seen fun newStat heq => hnot newStat ((hpc newStat).mpr heq)
  callback newStat heq := by
    rw [h.seen, h.entry]
    exact hs.callback newStat ((hpc newStat).mp heq)

theorem stop (s : System) (pollId : ℕ) :
    SameLog s (s.loopyFSPollStop pollId).track ∧ (s.loopyFSPollStop pollId).track.pc = s.pc := by
  have hrefl : SameLog s s.track ∧ s.track.pc = s.pc := ⟨⟨rfl, rfl, rfl, rfl, fun _ hn => hn⟩, rfl⟩
  unfold System.loopyFSPollStop
  split
  · exact hrefl
  split
  next => exact hrefl
  next before n _ =>
    have hlive : ∀ m, update s.live n false m = true → s.live m = true := by
      intro m hm
      by_cases hmn : m = n
      · rw [hmn, update_self] at hm
        cases hm
      · rw [update_of_ne hmn] at hm
        exact hm
    unfold System.stopTimerIfEmpty System.loopyUnregisterTimer
    rw [FSPollInv.setLink_same]
    dsimp only
    split <;> exact ⟨⟨rfl, rfl, rfl, rfl, hlive⟩, rfl⟩

theorem stopAll (s : System) :
    SameLog s s.loopyFSPollStopAll.track ∧ s.loopyFSPollStopAll.track.pc = s.pc := by
  unfold System.loopyFSPollStopAll
  dsimp only
  split
  · exact ⟨⟨rfl, rfl, rfl, rfl, fun n hn => (Bool.and_eq_true _ _ ▸ hn : _ ∧ _).1⟩, rfl⟩
  · exact ⟨⟨rfl, rfl, rfl, rfl, fun n hn => (Bool.and_eq_true _ _ ▸ hn : _ ∧ _).1⟩, rfl⟩

end SameLog

theorem remembered_update (e : LoopyFSPollEntry) (newStat : Option Stat) :
    (e.update newStat).remembered = newStat := by
  cases newStat <;> rfl

namespace ChangeInv

variable {s t : System} {n : ℕ}

/-- What is due depends on what an entry was started with. -/
theorem law_update (s : System) (n : ℕ) (newStat : Option Stat) :
    ReportLaw (s.update n newStat) ↔ ReportLaw s := by
  have hdue : ∀ m, (update s.entry n ((s.entry n).update newStat) m).due =
      (s.entry m).due := by
    intro m
    by_cases hm : m = n
    · rw [hm, update_self]
      rfl
    · rw [update_of_ne hm]
  refine forall₂_congr fun m _ => ?_
  show s.reports m = List.zipWith (update s.entry n _ m).due (s.seen m) _ ↔ _
  rw [hdue m]
  rfl

/-- An entry remembers what its callback was about. -/
theorem remembers_update {newStat : Option Stat} (hpc : s.pc = .callback n newStat)
    (h : ∀ m, s.live m = true → Remembers s m) (m : ℕ) (hm : s.live m = true) :
    Remembers (s.update n newStat) m := by
  have hentry : (s.update n newStat).entry m =
      if m = n then (s.entry n).update newStat else s.entry m := by
    show update s.entry n _ m = _
    by_cases hmn : m = n
    · rw [hmn, update_self, if_pos rfl]
    · rw [update_of_ne hmn, if_neg hmn]
  refine ⟨?_, fun _ => ?_, fun newStat' heq => by cases heq⟩
  · rw [hentry]
    split
    next hmn =>
      rw [hmn] at hm
      exact (h n hm).cb
    next => exact (h m hm).cb
  · rw [hentry]
    show ∃ l, s.seen m = _
    split
    next hmn =>
      rw [hmn] at hm ⊢
      obtain ⟨l, hl⟩ := (h n hm).callback newStat hpc
      rw [remembered_update]
      exact ⟨_, hl⟩
    next hmn =>
      refine (h m hm).seen fun newStat' heq => hmn ?_
      rw [hpc] at heq
      cases heq
      rfl

/-- The entry is in its callback, or would be. -/
def logged (s : System) (n : ℕ) (newStat : Option Stat) : System :=
  { s with
    examined := s.examined ++ [n]
    seen := update s.seen n (s.seen n ++ [newStat])
    reports := update s.reports n (s.reports n ++ [report (s.entry n) newStat])
    pc := .callback n newStat }

theorem examine_eq (s : System) (n : ℕ) (newStat : Option Stat) :
    s.examine n newStat = logged s n newStat ∨
      s.examine n newStat = (logged s n newStat).update n newStat := by
  unfold System.examine
  dsimp only
  split
  · exact .inl rfl
  · exact .inr rfl

theorem remembers_logged (h : ∀ m, s.live m = true → Remembers s m)
    (hpc : ∀ m newStat, s.pc ≠ .callback m newStat) (newStat : Option Stat) (m : ℕ)
    (hm : s.live m = true) : Remembers (logged s n newStat) m := by
  obtain ⟨l, hl⟩ := (h m hm).seen (hpc m)
  refine ⟨(h m hm).cb, fun hnot => ?_, fun newStat' heq => ?_⟩
  · have hmn : m ≠ n := by
      rintro rfl
      exact hnot newStat rfl
    refine ⟨l, ?_⟩
    show update s.seen n _ m = _
    rw [update_of_ne hmn, hl]
    rfl
  · cases heq
    refine ⟨l, ?_⟩
    show update s.seen n _ n = _
    rw [update_self, hl]
    rfl

/-- **One examination** keeps the law exactly if the callback is what is due. -/
theorem law_logged (h : Remembers s n) (hn : n < s.allocated)
    (hpc : ∀ newStat, s.pc ≠ .callback n newStat) (newStat : Option Stat) :
    ReportLaw (logged s n newStat) ↔ ReportLaw s ∧ ¬ Overlooked (s.entry n) newStat := by
  obtain ⟨l, hl⟩ := h.seen hpc
  have hself : (logged s n newStat).reports n = List.zipWith (s.entry n).due
      ((logged s n newStat).seen n) ((logged s n newStat).seen n).tail ↔
      s.reports n = List.zipWith (s.entry n).due (s.seen n) (s.seen n).tail ∧
        ¬ Overlooked (s.entry n) newStat := by
    show update s.reports n _ n = List.zipWith (s.entry n).due
      (update s.seen n _ n) (update s.seen n _ n).tail ↔ _
    rw [update_self, update_self, hl, zipWith_tail_concat, ← report_eq_due h.cb]
    constructor
    · intro heq
      obtain ⟨hreports, hlast⟩ := List.append_inj' heq rfl
      exact ⟨hreports, (List.cons.inj hlast).1⟩
    · rintro ⟨hreports, hlast⟩
      rw [hreports, hlast]
  have hother : ∀ m, m ≠ n → ((logged s n newStat).reports m = List.zipWith (s.entry m).due
      ((logged s n newStat).seen m) ((logged s n newStat).seen m).tail ↔
      s.reports m = List.zipWith (s.entry m).due (s.seen m) (s.seen m).tail) := by
    intro m hm
    show update s.reports n _ m = List.zipWith (s.entry m).due
      (update s.seen n _ m) (update s.seen n _ m).tail ↔ _
    rw [update_of_ne hm, update_of_ne hm]
  constructor
  · intro hlaw
    obtain ⟨hlast, hnoticed⟩ := hself.mp (hlaw n hn)
    refine ⟨fun m hm => ?_, hnoticed⟩
    by_cases hmn : m = n
    · rw [hmn]
      exact hlast
    · exact (hother m hmn).mp (hlaw m hm)
  · rintro ⟨hlaw, hnoticed⟩ m hm
    by_cases hmn : m = n
    · rw [hmn]
      exact hself.mpr ⟨hlaw n hn, hnoticed⟩
    · exact (hother m hmn).mpr (hlaw m hm)

/-- A start does nothing, or logs the first observation of a new entry. -/
theorem start_log (s : System) (path : ℕ) (events : BitVec 32) (cb userData : ℕ)
    (newStat : Option Stat) (timerId : ℕ) :
    (s.loopyFSPollStart path events cb userData newStat timerId).pc = s.pc ∧
      (SameLog s (s.loopyFSPollStart path events cb userData newStat timerId) ∨
        ∃ e : LoopyFSPollEntry, e.cb ≠ 0 ∧ e.remembered = newStat ∧ ∃ live, (∀ m, live m = true →
          s.live m = true ∨ m = s.allocated) ∧ SameLog
            { s with
              entry := update s.entry s.allocated e
              seen := update s.seen s.allocated [newStat]
              reports := update s.reports s.allocated []
              allocated := s.allocated + 1
              live := live }
            (s.loopyFSPollStart path events cb userData newStat timerId)) := by
  have hlive : ∀ m, update s.live s.allocated true m = true →
      s.live m = true ∨ m = s.allocated := by
    intro m hm
    by_cases hnew : m = s.allocated
    · exact .inr hnew
    · rw [update_of_ne hnew] at hm
      exact .inl hm
  unfold System.loopyFSPollStart
  split
  · exact ⟨rfl, .inl ⟨rfl, rfl, rfl, rfl, fun _ hn => hn⟩⟩
  next hnull =>
    have hcb : cb ≠ 0 := (not_or.mp (not_or.mp hnull).2).1
    let e : LoopyFSPollEntry :=
      ⟨s.nextId, path, events, cb, userData, newStat.getD .zero, newStat.isSome, s.followSymlinks⟩
    have hremembered : e.remembered = newStat := by
      cases newStat <;> rfl
    dsimp only
    split
    · split
      · refine ⟨rfl, .inr ⟨e, hcb, hremembered, _, hlive, rfl, rfl, rfl, rfl, fun m hm => ?_⟩⟩
        have hm : update (update s.live s.allocated true) s.allocated false m =
          true := hm
        by_cases hnew : m = s.allocated
        · rw [hnew, update_self] at hm
          cases hm
        · rw [update_of_ne hnew] at hm
          exact hm
      · exact ⟨rfl, .inr ⟨e, hcb, hremembered, _, hlive, rfl, rfl, rfl, rfl, fun _ hm => hm⟩⟩
    · exact ⟨rfl, .inr ⟨e, hcb, hremembered, _, hlive, rfl, rfl, rfl, rfl, fun _ hm => hm⟩⟩

/-- A new entry has nothing to report. -/
theorem start (h : ∀ m, s.live m = true → Remembers s m) (hbound : ∀ m, s.live m = true →
    m < s.allocated) (hpc : s.pc = .user) (path : ℕ) (events : BitVec 32) (cb userData : ℕ)
    (newStat : Option Stat) (timerId : ℕ) :
    (∀ m, (s.loopyFSPollStart path events cb userData newStat timerId).track.live m = true →
      Remembers (s.loopyFSPollStart path events cb userData newStat timerId).track m) ∧
      (ReportLaw (s.loopyFSPollStart path events cb userData newStat timerId).track ↔
        ReportLaw s) := by
  obtain ⟨hpct, hlog⟩ := start_log s path events cb userData newStat timerId
  generalize s.loopyFSPollStart path events cb userData newStat timerId = t at hpct hlog
  have htrack : SameLog t t.track := ⟨rfl, rfl, rfl, rfl, fun _ hm => hm⟩
  have hpct : t.track.pc = .user := hpct.trans hpc
  rcases hlog with hsame | ⟨e, hcb, hremembered, live, hlive, hsame⟩
  · have hlog := hsame.trans htrack
    refine ⟨fun m hm => hlog.remembers (h m (hlog.live m hm)) fun newStat => ?_, hlog.law⟩
    rw [hpct, hpc]
  · have hlog := hsame.trans htrack
    constructor
    · intro m hm
      refine hlog.remembers (s := _) ?_ fun newStat => ?_
      · rcases hlive m (hlog.live m hm) with hold | hnew
        · have hne := Nat.ne_of_lt (hbound m hold)
          refine ⟨?_, fun hnot => ?_, fun newStat heq => ?_⟩
          · show (update s.entry s.allocated e m).cb ≠ 0
            rw [update_of_ne hne]
            exact (h m hold).cb
          · show ∃ l, update s.seen s.allocated [_] m =
              l ++ [(update s.entry s.allocated e m).remembered]
            rw [update_of_ne hne, update_of_ne hne]
            exact (h m hold).seen hnot
          · rw [show s.pc = .callback m newStat from heq] at hpc
            cases hpc
        · subst hnew
          refine ⟨?_, fun _ => ⟨[], ?_⟩, fun newStat heq => ?_⟩
          · show (update s.entry s.allocated e s.allocated).cb ≠ 0
            rw [update_self]
            exact hcb
          · show update s.seen s.allocated [_] s.allocated =
              [] ++ [(update s.entry s.allocated e s.allocated).remembered]
            rw [update_self, update_self, hremembered]
            rfl
          · rw [show s.pc = .callback s.allocated newStat from heq] at hpc
            cases hpc
      · rw [hpct]
        exact iff_of_false (fun heq => by cases heq) fun heq => by
          rw [show s.pc = .callback m newStat from heq] at hpc
          cases hpc
    · rw [hlog.law]
      have hold : ∀ m < s.allocated,
          (update s.reports s.allocated [] m = List.zipWith
            (update s.entry s.allocated e m).due
            (update s.seen s.allocated [newStat] m)
            (update s.seen s.allocated [newStat] m).tail ↔
          s.reports m = List.zipWith (s.entry m).due (s.seen m) (s.seen m).tail) := by
        intro m hm
        have hne := Nat.ne_of_lt hm
        rw [update_of_ne hne, update_of_ne hne, update_of_ne hne]
      constructor
      · intro hlaw m hm
        exact (hold m hm).mp (hlaw m (Nat.lt_succ_of_lt hm))
      · intro hlaw m hm
        have hm : m < s.allocated + 1 := hm
        by_cases hnew : m = s.allocated
        · subst hnew
          show update s.reports s.allocated [] s.allocated = List.zipWith _
            (update s.seen s.allocated [newStat] s.allocated)
            (update s.seen s.allocated [newStat] s.allocated).tail
          rw [update_self, update_self]
          rfl
        · exact (hold m (by omega)).mpr (hlaw m (by omega))

/-- A call outside of the callbacks stops no entry in its callback. -/
theorem spared {a : Action} (hq : Quiet s a) : Spared s a := by
  cases a with
  | stop pollId =>
    unfold Spared
    dsimp only
    rw [show s.pc = .user from hq]
    trivial
  | stopAll => exact hq
  | start | timer | examine | ret | finish => trivial

theorem not_callback (hpc : s.pc = .user) (m : ℕ) (newStat : Option Stat) :
    s.pc ≠ .callback m newStat := by
  rw [hpc]
  exact Pc.noConfusion

theorem not_callback_walk {current : Option ℕ} (hpc : s.pc = .walk current) (m : ℕ)
    (newStat : Option Stat) : s.pc ≠ .callback m newStat := by
  rw [hpc]
  exact Pc.noConfusion

/-- **One step** keeps the invariant, and the law exactly if no modification is overlooked. -/
theorem step (h : ChangeInv s) {a : Action} (hq : Quiet s a) (hstep : s.step a = some t) :
    ChangeInv t ∧ (ReportLaw t ↔ ReportLaw s ∧ Noticed s a) := by
  obtain ⟨l, todo, hinv⟩ := h.inv
  have hinvt := hinv.step (spared hq) hstep
  have hbound : ∀ m, s.live m = true → m < s.allocated := fun m hm =>
    hinv.bound m ((hinv.live m).mp hm)
  suffices hrest : (∀ m, t.live m = true → Remembers t m) ∧
      (ReportLaw t ↔ ReportLaw s ∧ Noticed s a) from ⟨⟨hinvt, hrest.1⟩, hrest.2⟩
  -- a step that sees nothing
  have hquiet : SameLog s t → (∀ m newStat, t.pc ≠ .callback m newStat) →
      (∀ m newStat, s.pc ≠ .callback m newStat) → Noticed s a →
      (∀ m, t.live m = true → Remembers t m) ∧ (ReportLaw t ↔ ReportLaw s ∧ Noticed s a) := by
    intro hlog hpct hpc hnoticed
    refine ⟨fun m hm => hlog.remembers (h.remembers m (hlog.live m hm)) fun newStat => ?_, ?_⟩
    · exact iff_of_false (hpct m newStat) (hpc m newStat)
    · rw [hlog.law]
      exact (and_iff_left hnoticed).symm
  cases stepped hstep with
  | start path events cb userData newStat timerId =>
    obtain ⟨hremembers, hlaw⟩ := start h.remembers hbound hq path events cb userData newStat timerId
    exact ⟨hremembers, hlaw.trans (and_iff_left trivial).symm⟩
  | stop pollId =>
    have hpc : s.pc = .user := hq
    obtain ⟨hlog, hpct⟩ := SameLog.stop s pollId
    exact hquiet hlog (not_callback (hpct.trans hpc)) (not_callback hpc) trivial
  | stopAll =>
    have hpc : s.pc = .user := hq
    obtain ⟨hlog, hpct⟩ := SameLog.stopAll s
    exact hquiet hlog (not_callback (hpct.trans hpc)) (not_callback hpc) trivial
  | timer hpc =>
    exact hquiet ⟨rfl, rfl, rfl, rfl, fun _ hm => hm⟩ (not_callback_walk rfl) (not_callback hpc)
      trivial
  | examine newStat n hpc hn =>
    have hnoticed : Noticed s (.examine newStat) ↔ ¬ Overlooked (s.entry n) newStat := by
      unfold Noticed
      dsimp only
      rw [hpc]
      exact Iff.rfl
    have hlogged := remembers_logged (n := n) h.remembers (not_callback_walk hpc) newStat
    rw [hnoticed, ← law_logged (h.remembers n hn) (hbound n hn) (not_callback_walk hpc n)]
    rcases examine_eq s n newStat with heq | heq
    · rw [heq]
      exact ⟨hlogged, Iff.rfl⟩
    · rw [heq]
      exact ⟨remembers_update (s := logged s n newStat) rfl hlogged, law_update ..⟩
  | examineFreed | retFreed =>
    -- the invariant holds of no crash
    obtain ⟨_, _, hcrash⟩ := hinvt
    exact (hcrash.position : False).elim
  | ret newStat n hpc hn =>
    refine ⟨remembers_update hpc h.remembers, ?_⟩
    rw [law_update]
    exact (and_iff_left trivial).symm
  | finish hpc =>
    exact hquiet ⟨rfl, rfl, rfl, rfl, fun _ hm => hm⟩ (not_callback rfl) (not_callback_walk hpc)
      trivial

theorem new (followSymlinks : Bool) : ChangeInv (.new followSymlinks) where
  inv := ⟨_, _, .new followSymlinks⟩
  remembers _ hm := absurd hm Bool.false_ne_true

end ChangeInv

/-- **Changes are reported** as they are due, in a run in which callbacks do not modify the poller,
if and only if no file is modified within one second of its last modification. -/
theorem reported_iff {followSymlinks : Bool} {as : List Action} {s : System}
    (h : Run System.step Quiet (.new followSymlinks) as s) :
    ReportLaw s ↔ Run System.step (fun s a => Quiet s a ∧ Noticed s a) (.new followSymlinks) as s :=
  h.clean_iff_within (P := ChangeInv) (fun _ _ _ hs hq hstep => (hs.step hq hstep).1)
    (fun _ _ _ hs hq hstep => (hs.step hq hstep).2) (.new followSymlinks)
    fun n hn => absurd hn (Nat.not_lt_zero n)

/-- A file is deleted, created again, and then grows. -/
def recreated : List Action :=
  [.start 1 0x7f#32 7 70 (sized 0) 9, .timer, .examine none, .ret, .finish, .timer,
    .examine (sized 0), .ret, .finish, .timer, .examine (sized 0), .finish, .timer,
    .examine (sized 5)]

theorem reported_recreated :
    ∃ s, Run System.step Quiet (.new true) recreated s ∧ ReportLaw s ∧
      s.reports 0 = [some ⟨1, LOOPY_FSPOLL_DELETED, 1, sized 0, none, 70⟩,
        some ⟨1, LOOPY_FSPOLL_CREATED, 1, none, sized 0, 70⟩, none,
        some ⟨1, LOOPY_FSPOLL_SIZE, 1, sized 0, sized 5, 70⟩] := by
  have hexec : (exec System.step (fun s a => Quiet s a ∧ Noticed s a) (.new true) recreated).map
      (fun s => s.reports 0) = some [some ⟨1, LOOPY_FSPOLL_DELETED, 1, sized 0, none, 70⟩,
        some ⟨1, LOOPY_FSPOLL_CREATED, 1, none, sized 0, 70⟩, none,
        some ⟨1, LOOPY_FSPOLL_SIZE, 1, sized 0, sized 5, 70⟩] := by
    decide +kernel
  obtain ⟨s, hrun, hval⟩ := Run.of_exec_map hexec
  have hquiet := hrun.mono fun _ _ hok => hok.1
  exact ⟨s, hquiet, (reported_iff hquiet).mpr hrun, hval⟩

/-- A file is modified twice within one second. -/
def modifiedTwice : List Action :=
  [.start 1 LOOPY_FSPOLL_MODIFIED 7 70 (some ⟨100, 0, 0, 0o100644#32, 0, 0⟩) 9, .timer,
    .examine (some ⟨100, 500000000, 0, 0o100644#32, 0, 0⟩)]

theorem not_reported :
    ¬ ∀ followSymlinks as s, Run System.step Quiet (.new followSymlinks) as s → ReportLaw s := by
  intro hall
  have hexec : (exec System.step Quiet (.new true) modifiedTwice).map (fun s => (s.allocated,
      decide (s.reports 0 = List.zipWith (s.entry 0).due (s.seen 0) (s.seen 0).tail))) =
      some (1, false) := by
    decide +kernel
  obtain ⟨s, hrun, hval⟩ := Run.of_exec_map hexec
  obtain ⟨hallocated, hdiffers⟩ := Prod.mk.inj hval
  exact of_decide_eq_false hdiffers (hall _ _ s hrun 0 (by omega))

end Loopy.FSPoll
