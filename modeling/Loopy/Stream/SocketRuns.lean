import Loopy.Stream.Sockets

/-!
# `loopyStream.c`: no registered descriptor is closed

In orderly runs the table of the event loop has no entry but that of the stream's fd, which is
registered for read only while the stream reads or listens, and not at all while the stream is being
closed. So nothing is registered for a socket that is replaced, or closed at the end.
-/

namespace Loopy.Stream

open Loopy.Lib

/-! ## The table of the event loop -/

section table

variable {s : Sockets} {stream stream' : LoopyStream}

theorem Sockets.registeredRead_eq_false {n : ℕ} (hfd : s.stream.fd = some n) :
    s.registeredRead = false ↔ s.read n = none := by
  rw [registeredRead, hfd, Option.bind_some, Option.isSome_eq_false_iff, Option.isNone_iff_eq_none]

theorem LoopyStream.registered_eq_false {s : LoopyStream} {n : ℕ} (hfd : s.fd = some n) :
    s.registered = false ↔ s.watch n = none := by
  rw [registered, hfd, Option.bind_some, Option.isSome_eq_false_iff, Option.isNone_iff_eq_none]

/-- No entry is added but that of the fd, and none while the stream is being closed. -/
structure AddsOwn (s s' : LoopyStream) : Prop where
  others : ∀ n, s'.fd ≠ some n → s.watch n = none → s'.watch n = none
  closed : s.closing = true → ∀ n, s.watch n = none → s'.watch n = none
  closing : s'.closing = s.closing
  closes : s'.pc.closes = s.pc.closes

theorem SameSocket.addsOwn {s s' : LoopyStream} (h : SameSocket s s') (hopen : SameOpen s s')
    (hcloses : s.closing = s.pc.closes) : AddsOwn s s' where
  others n hn hnone := by
    rcases h.watch with heq | ⟨-, hothers⟩
    · rw [heq]
      exact hnone
    · exact (hothers n fun hfd => hn (h.fd.trans hfd)).trans hnone
  closed hclosing n hnone := by
    rcases h.watch with heq | ⟨hends, -⟩
    · rw [heq]
      exact hnone
    · rw [← hcloses, or_self, hclosing] at hends
      cases hends
  closing := hopen.closing
  closes := hopen.closes

theorem LoopyStream.refused_watch (s stream : LoopyStream) (a : Action) {n : ℕ}
    (h : stream.watch n = none ∨ (∀ ok, a ≠ .getsockopt ok) ∧ s.watch n = none) :
    (s.refused stream a).watch n = none := by
  unfold refused
  dsimp only
  rcases h with hnone | ⟨ha, hnone⟩
  · rw [hnone]
    rfl
  · split
    · cases a with
      | getsockopt ok => exact absurd rfl (ha ok)
      | _ => exact hnone
    · rfl

/-- An action that registers nothing is not refused anything. -/
theorem LoopyStream.refused_eq (s stream : LoopyStream) {a : Action} (registers : Bool)
    (ha : ∀ ok, a ≠ .getsockopt ok) (hwatch : stream.watch = s.watch) :
    (if registers then stream else s.refused stream a) = stream := by
  have hsame (n : ℕ) : (s.refused stream a).watch n = stream.watch n := by
    cases hn : stream.watch n with
    | none => exact s.refused_watch stream a (.inl hn)
    | some handler =>
      unfold refused
      dsimp only
      rw [hn, Option.isSome_some, if_pos rfl, ← hn, hwatch]
      cases a with
      | getsockopt ok => exact absurd rfl (ha ok)
      | _ => rfl
  have hfields : s.refused stream a = { stream with watch := (s.refused stream a).watch } := rfl
  rw [hfields, funext hsame, ite_self]

/-- What the event loop refuses is not added. -/
theorem AddsOwn.refused {s s' : LoopyStream} (h : AddsOwn s s') (a : Action) (registers : Bool) :
    AddsOwn s (if registers then s' else s.refused s' a) := by
  cases registers with
  | true => exact h
  | false =>
    exact
      { others := fun n hn hnone => s.refused_watch s' a (.inl (h.others n hn hnone))
        closed := fun hclosing n hnone => s.refused_watch s' a (.inl (h.closed hclosing n hnone))
        closing := h.closing
        closes := h.closes }

theorem LoopyStream.connect_addsOwn {s : LoopyStream} {address : Address} {r : ConnectResult}
    {registers : Bool} (cb : Bool) (h : s.closing = true → registers = true →
      s.connects address = true → r ≠ .inProgress) :
    AddsOwn s
      (if registers then s.connect address r cb
      else s.refused (s.connect address r cb) (.connect address r cb)) := by
  have hplace := s.connect_place address r cb
  cases registers with
  | true =>
    refine ⟨fun n hn hnone => ?_, fun hclosing n hnone => ?_, hplace.closing, ?_⟩
    · exact (connect_watch hn).trans hnone
    · exact (congrFun (connect_unwatched cb (h hclosing rfl)) n).trans hnone
    · exact congrArg Pc.closes hplace.pc
  | false =>
    have hrefused (n : ℕ) (hnone : s.watch n = none) :
        (s.refused (s.connect address r cb) (.connect address r cb)).watch n = none :=
      s.refused_watch _ _ (.inr ⟨fun _ => nofun, hnone⟩)
    exact ⟨fun n _ => hrefused n, fun _ n => hrefused n, hplace.closing,
      congrArg Pc.closes hplace.pc⟩

end table

/-! ## The invariant -/

/-- The table has entries for the fd only; the fd is registered for read only while the stream
reads or listens; while the stream is being closed it is not registered; and the record is in
order. -/
structure SocketInv (s : Sockets) : Prop where
  owned : s.owned = s.stream.fd.toList
  closes : s.stream.closing = s.stream.pc.closes
  others : ∀ n, s.stream.fd ≠ some n → s.read n = none ∧ s.stream.watch n = none
  reads : s.registeredRead = true → s.stream.reading = true ∨ s.listening = true
  closed : s.stream.closing = true → s.registeredRead = false ∧ s.stream.registered = false
  closings : ∀ c ∈ s.closings, c.read = false ∧ c.write = false
  replacements : ∀ r ∈ s.replacements,
    (r.reading = true → r.read = true) ∧ (r.queued = true → r.write = true)

section steps

variable {s s' : Sockets} {stream : LoopyStream}

theorem SocketInv.new {start : LoopyStream} (h : Created start) : SocketInv (.new start) where
  owned := rfl
  closes := by cases h <;> rfl
  others _ _ := ⟨rfl, by cases h <;> rfl⟩
  reads hread := by
    unfold Sockets.registeredRead Sockets.new at hread
    cases hfd : start.fd <;> rw [hfd] at hread <;> cases hread
  closed hclosing := by cases h <;> cases hclosing
  closings := nofun
  replacements := nofun

theorem SocketInv.law (h : SocketInv s) : SocketLaw s where
  closings := h.closings
  replacements := h.replacements
  owned fd hfd := by
    rw [h.owned, hfd]
    exact List.mem_singleton.mpr rfl

/-- While the stream is being closed nothing is registered. -/
theorem SocketInv.bare_of_closing (h : SocketInv s) (hclosing : s.stream.closing = true) (n : ℕ) :
    s.read n = none ∧ s.stream.watch n = none := by
  by_cases hfd : s.stream.fd = some n
  · obtain ⟨hread, hwrite⟩ := h.closed hclosing
    exact ⟨(Sockets.registeredRead_eq_false hfd).mp hread,
      (LoopyStream.registered_eq_false hfd).mp hwrite⟩
  · exact h.others n hfd

/-- Nothing is registered for a loose socket. -/
theorem SocketInv.bare (h : SocketInv s) (hloose : s.Loose) (n : ℕ) :
    s.read n = none ∧ s.stream.watch n = none := by
  obtain ⟨hreading, hlistening, hwrite⟩ := hloose
  by_cases hfd : s.stream.fd = some n
  · refine ⟨?_, (LoopyStream.registered_eq_false hfd).mp hwrite⟩
    refine (Sockets.registeredRead_eq_false hfd).mp (Bool.of_not_eq_true fun hread => ?_)
    rcases h.reads hread with hreads | hlistens
    · exact absurd (hreading.symm.trans hreads) Bool.false_ne_true
    · have hnone := (h.closed (hlistening hlistens)).1
      exact absurd (hnone.symm.trans hread) Bool.false_ne_true
  · exact h.others n hfd

theorem Sockets.registeredRead_of_bare (hbare : ∀ n, s.read n = none) :
    s.registeredRead = false := by
  unfold registeredRead
  cases s.stream.fd with
  | none => rfl
  | some n => rw [Option.bind_some, hbare n, Option.isSome_none]

theorem LoopyStream.registered_of_bare {s : LoopyStream} (hbare : ∀ n, s.watch n = none) :
    s.registered = false := by
  unfold registered
  cases s.fd with
  | none => rfl
  | some n => rw [Option.bind_some, hbare n, Option.isSome_none]

/-- The functions of the stream that keep the socket. -/
theorem SocketInv.keeps (h : SocketInv s) (hadds : AddsOwn s.stream stream)
    (hfd : stream.fd = s.stream.fd) (hreading : stream.reading = s.stream.reading) :
    SocketInv { s with stream } := by
  have hread : Sockets.registeredRead { s with stream } = s.registeredRead := by
    unfold Sockets.registeredRead
    dsimp only
    rw [hfd]
  refine ⟨?_, ?_, fun n hn => ?_, fun hr => ?_, fun hclosing => ?_, h.closings, h.replacements⟩
  · exact h.owned.trans (congrArg Option.toList hfd.symm)
  · exact hadds.closing.trans (h.closes.trans hadds.closes.symm)
  · obtain ⟨hread, hwatch⟩ := h.others n fun hs => hn (hfd.trans hs)
    exact ⟨hread, hadds.others n hn hwatch⟩
  · exact (h.reads (hread.symm.trans hr)).imp_left fun hreads => hreading.trans hreads
  · have hclosing' : s.stream.closing = true := hadds.closing.symm.trans hclosing
    refine ⟨hread.trans (h.closed hclosing').1, LoopyStream.registered_of_bare fun n => ?_⟩
    exact hadds.closed hclosing' n (h.bare_of_closing hclosing' n).2

/-! ## A socket is closed -/

theorem Sockets.closeFd_same (s : Sockets) :
    s.closeFd.read = s.read ∧ s.closeFd.listening = s.listening ∧
    s.closeFd.replacements = s.replacements := by
  unfold closeFd
  split <;> exact ⟨rfl, rfl, rfl⟩

namespace SocketInv

theorem closeFd_owned (h : SocketInv s) : s.closeFd.owned = [] := by
  have howned := h.owned
  unfold Sockets.closeFd
  cases hfd : s.stream.fd with
  | none =>
    rw [hfd] at howned
    exact howned
  | some fd =>
    rw [hfd] at howned
    dsimp only
    rw [howned]
    exact List.erase_cons_head ..

/-- A socket for which nothing is registered is closed. -/
theorem closeFd_closings (h : SocketInv s)
    (hbare : ∀ n, s.read n = none ∧ s.stream.watch n = none) :
    ∀ c ∈ s.closeFd.closings, c.read = false ∧ c.write = false := by
  unfold Sockets.closeFd
  split
  · exact h.closings
  · intro c hc
    rcases List.mem_append.mp hc with hc | hc
    · exact h.closings c hc
    · rw [List.mem_singleton.mp hc]
      exact ⟨Sockets.registeredRead_of_bare fun n => (hbare n).1,
        LoopyStream.registered_of_bare fun n => (hbare n).2⟩

/-- A loose socket is replaced. -/
theorem opens (h : SocketInv s) (hloose : s.Loose) (hadds : AddsOwn s.stream stream) :
    SocketInv (s.closeFd.opened stream) := by
  have hbare := h.bare hloose
  obtain ⟨hread, hlistening, hreplacements⟩ := s.closeFd_same
  have hnone (n : ℕ) : (s.closeFd.opened stream).read n = none :=
    (congrFun hread n).trans (hbare n).1
  refine ⟨?_, ?_, fun n hn => ⟨hnone n, ?_⟩, fun hr => ?_, fun hclosing => ?_, ?_, ?_⟩
  · unfold Sockets.opened
    rw [h.closeFd_owned, List.append_nil]
  · exact hadds.closing.trans (h.closes.trans hadds.closes.symm)
  · exact hadds.others n hn (hbare n).2
  · rw [Sockets.registeredRead_of_bare hnone] at hr
    cases hr
  · refine ⟨Sockets.registeredRead_of_bare hnone, LoopyStream.registered_of_bare fun n => ?_⟩
    exact hadds.closed (hadds.closing.symm.trans hclosing) n (hbare n).2
  · exact h.closeFd_closings hbare
  · intro r hr
    exact h.replacements r (hreplacements ▸ hr)

/-- The call that has replaced a loose socket returns true. -/
theorem replaced (h : SocketInv s') (hloose : s.Loose)
    (hqueued : s.stream.writeHead ≠ none → s'.stream.registered = true) :
    SocketInv (s.replaced s') := by
  refine ⟨h.owned, h.closes, h.others, h.reads, h.closed, h.closings, fun r hr => ?_⟩
  rcases List.mem_append.mp hr with hr | hr
  · exact h.replacements r hr
  · rw [List.mem_singleton.mp hr]
    refine ⟨fun hreading => ?_, fun hq => hqueued (Option.isSome_iff_ne_none.mp hq)⟩
    exact absurd (hloose.1.symm.trans hreading) Bool.false_ne_true

/-! ## The actions -/

theorem bind6 (h : SocketInv s) {socket : Option ℕ} {nonBlock valid bound : Bool}
    (hok : Orderly s (.bind6 socket nonBlock valid bound))
    (hstep : s.step (.bind6 socket nonBlock valid bound) = some s') : SocketInv s' := by
  obtain ⟨-, hstep⟩ := Option.ite_none_right_eq_some.mp hstep
  unfold Sockets.bind6 at hstep
  by_cases htcp : s.stream.type ≠ .tcp
  · rw [if_pos htcp] at hstep
    cases hstep
    exact h
  · rw [if_neg htcp] at hstep
    obtain ⟨hloose, hqueued⟩ := hok (not_not.mp htcp)
    -- the old socket is closed before anything can fail
    have hopens : SocketInv (s.closeFd.opened { s.stream with fd := socket }) :=
      h.opens hloose ⟨fun _ _ hnone => hnone, fun _ _ hnone => hnone, rfl, rfl⟩
    dsimp only at hstep
    by_cases hsocket : socket = none
    · rw [if_pos hsocket] at hstep
      cases hstep
      exact hopens
    rw [if_neg hsocket] at hstep
    cases hnonBlock : nonBlock with
    | false =>
      rw [hnonBlock, if_pos rfl] at hstep
      cases hstep
      exact hopens
    | true =>
      cases hvalid : valid with
      | false =>
        rw [hnonBlock, hvalid, if_neg Bool.false_ne_true.symm, if_pos rfl] at hstep
        cases hstep
        exact hopens
      | true =>
        rw [hnonBlock, hvalid, if_neg Bool.false_ne_true.symm,
          if_neg Bool.false_ne_true.symm] at hstep
        cases hbound : bound with
        | false =>
          rw [hbound, if_pos rfl] at hstep
          cases hstep
          exact hopens
        | true =>
          rw [hbound, if_neg Bool.false_ne_true.symm] at hstep
          cases hstep
          exact hopens.replaced hloose fun hq =>
            absurd (hqueued hsocket hnonBlock hvalid hbound) hq

/-- The stream reads or listens, and what it registers is only registered while the stream is
open. -/
theorem registers (h : SocketInv s) {handler : ReadHandler} {registers : Bool}
    (hclosing : s.stream.closing = true → registers = true → s.stream.fd = none)
    (hreads : s.stream.fd ≠ none → s.stream.reading = true ∨ s.listening = true) :
    SocketInv (s.registerRead handler registers) := by
  unfold Sockets.registerRead
  cases hfd : s.stream.fd with
  | none => exact h
  | some fd =>
    cases registers with
    | false => exact h
    | true =>
      have hopen : s.stream.closing = false := by
        refine Bool.of_not_eq_true fun hc => ?_
        rw [hclosing hc rfl] at hfd
        cases hfd
      refine ⟨h.owned, h.closes, fun n hn => ⟨?_, (h.others n hn).2⟩, fun _ => ?_, fun hc => ?_,
        h.closings, h.replacements⟩
      · have hne : n ≠ fd := by
          rintro rfl
          exact hn hfd
        exact (Function.update_of_ne hne ..).trans (h.others n hn).1
      · exact hreads (by rw [hfd]; exact Option.some_ne_none fd)
      · exact absurd (hopen.symm.trans hc) Bool.false_ne_true

theorem listen (h : SocketInv s) {ok cb registers : Bool}
    (hok : Orderly s (.listen ok cb registers))
    (hstep : s.step (.listen ok cb registers) = some s') : SocketInv s' := by
  obtain ⟨-, rfl⟩ := of_guard hstep
  unfold Sockets.listen
  split
  · exact h
  · next hguard =>
    rw [not_or, not_or, not_not] at hguard
    split
    · exact h
    · next hlistens =>
      have hlistening : SocketInv { s with listening := true } :=
        { h with reads := fun _ => .inr rfl }
      refine hlistening.registers (fun hclosing hregisters => ?_) fun _ => .inr rfl
      exact hok hclosing (Bool.of_not_eq_false hlistens) (Bool.of_not_eq_false hguard.2.2)
        hregisters hguard.1

end SocketInv

theorem Sockets.unregisterRead_read (s : Sockets) (n : ℕ) :
    s.unregisterRead.read n = if s.stream.fd = some n then none else s.read n := by
  unfold unregisterRead
  cases hfd : s.stream.fd with
  | none => rw [if_neg (Option.some_ne_none n).symm]
  | some fd =>
    dsimp only
    rw [Function.update_apply]
    simp only [Option.some.injEq, eq_comm]

theorem Sockets.unregisterRead_eq (s : Sockets) :
    s.unregisterRead = { s with read := s.unregisterRead.read } := by
  unfold unregisterRead
  split <;> rfl

theorem SocketInv.unregisterRead_none (h : SocketInv s) (n : ℕ) :
    s.unregisterRead.read n = none := by
  rw [s.unregisterRead_read]
  split
  · rfl
  · next hfd => exact (h.others n hfd).1

theorem SocketInv.connect (h : SocketInv s) {address : Address} {r : ConnectResult}
    {cb registers : Bool} (hok : Orderly s (.act (.connect address r cb) registers)) :
    SocketInv (s.after registers
      (if registers then s.stream.connect address r cb
      else s.stream.refused (s.stream.connect address r cb) (.connect address r cb))
      (.connect address r cb)) := by
  obtain ⟨hreplaces, hclosing⟩ := hok
  have hadds := LoopyStream.connect_addsOwn cb hclosing
  unfold Sockets.after
  dsimp only
  by_cases hrep : s.stream.replaces address = true
  · rw [if_pos hrep]
    obtain ⟨hloose, hqueued⟩ := hreplaces hrep
    have hopens := h.opens hloose hadds
    split
    · next hreturns =>
      rw [Bool.and_eq_true, decide_eq_true_eq] at hreturns
      refine hopens.replaced hloose fun hq => ?_
      obtain ⟨hr, hregisters⟩ := hqueued hreturns.1 hreturns.2 hq
      rw [hr, hregisters]
      exact LoopyStream.connect_registered hreturns.1 cb
    · exact hopens
  · rw [if_neg hrep]
    have hfd : (s.stream.connect address r cb).fd = s.stream.fd := by
      rw [LoopyStream.connect_fd, LoopyStream.onSocket, if_neg hrep]
    have hreading := s.stream.connect_reading address r cb
    cases registers with
    | true => exact h.keeps hadds hfd hreading
    | false => exact h.keeps hadds hfd hreading

theorem SocketInv.readStart (h : SocketInv s) {registers : Bool}
    (hok : Orderly s (.act .readStart registers)) {stream : LoopyStream}
    (hstream : stream = { s.stream with
      reading := s.stream.reading || (s.stream.fd.isSome && s.stream.readable) }) :
    SocketInv (s.after registers stream .readStart) := by
  have hreading : SocketInv { s with stream } := by
    subst hstream
    refine { h with reads := fun hr => (h.reads hr).imp_left fun hreads => ?_ }
    show (s.stream.reading || _) = true
    rw [hreads, Bool.true_or]
  unfold Sockets.after
  dsimp only
  split
  · next hreadable =>
    have hregister : ({ s.registerRead .streamReadCallback registers with stream } : Sockets) =
        Sockets.registerRead { s with stream } .streamReadCallback registers := by
      subst hstream
      unfold Sockets.registerRead
      dsimp only
      cases s.stream.fd with
      | none => rfl
      | some fd => cases registers <;> rfl
    rw [hregister]
    subst hstream
    refine hreading.registers (fun hclosing hregisters => ?_) fun hfd => .inl ?_
    · exact hok hclosing hregisters hreadable
    · show (s.stream.reading || (s.stream.fd.isSome && s.stream.readable)) = true
      rw [hreadable, Option.isSome_iff_ne_none.mpr hfd, Bool.and_true, Bool.or_true]
  · exact hreading

theorem SocketInv.readStop (h : SocketInv s) (registers : Bool) :
    SocketInv (s.after registers { s.stream with reading := false } .readStop) := by
  unfold Sockets.after
  dsimp only
  split
  · have hnone := h.unregisterRead_none
    rw [s.unregisterRead_eq]
    have hread : Sockets.registeredRead
        { s with stream := { s.stream with reading := false }, read := s.unregisterRead.read } =
        false := Sockets.registeredRead_of_bare hnone
    exact
      { h with
        others := fun n hn => ⟨hnone n, (h.others n hn).2⟩
        reads := fun hr => absurd (hread.symm.trans hr) Bool.false_ne_true
        closed := fun hclosing => ⟨hread, (h.closed hclosing).2⟩ }
  · next hnot =>
    refine { h with reads := fun hr => .inr ?_ }
    rcases h.reads hr with hreading | hlistening
    · rw [hreading, Bool.true_and, Bool.not_eq_true', Bool.not_eq_false] at hnot
      exact hnot
    · exact hlistening

theorem LoopyStream.unregister_bare {s : LoopyStream}
    (hothers : ∀ n, s.fd ≠ some n → s.watch n = none) (n : ℕ) :
    s.unregisterWrite.watch n = none := by
  by_cases hfd : s.fd = some n
  · unfold unregisterWrite
    rw [hfd]
    exact Function.update_self ..
  · exact (unregister_watch hfd).trans (hothers n hfd)

/-- `loopyStreamClose` unregisters the fd before anything else. -/
theorem SocketInv.close (h : SocketInv s) (hpc : s.stream.pc = .idle) (registers cb : Bool) :
    SocketInv (s.after registers
      (if registers then { s.stream with depth := 0 }.close cb
      else s.stream.refused ({ s.stream with depth := 0 }.close cb) (.close cb)) (.close cb)) := by
  have hopen : s.stream.closing = false := by
    rw [h.closes, hpc]
    rfl
  -- the stream up to the drain
  generalize hquiet : ({ s.stream with
    depth := 0, closing := true, closeCb := cb, reading := false } : LoopyStream) = quiet
  have hfd : quiet.fd = s.stream.fd := hquiet ▸ rfl
  have hbare (n : ℕ) : quiet.unregisterWrite.watch n = none := by
    refine LoopyStream.unregister_bare (fun m hm => ?_) n
    have hwatch := (h.others m fun hs => hm (hfd.trans hs)).2
    subst hquiet
    exact hwatch
  have hclose : { s.stream with depth := 0 }.close cb =
      { quiet.unregisterWrite with pc := .drain true quiet.unregisterWrite.writeHead } := by
    unfold LoopyStream.close
    dsimp only
    rw [hopen, if_neg Bool.false_ne_true, hquiet]
  rw [hclose]
  generalize hstream : (if registers then _ else _ : LoopyStream) = stream
  have hstreamFd : stream.fd = s.stream.fd := by
    refine Eq.trans ?_ (LoopyStream.unregister_fd.trans hfd)
    cases registers <;> exact hstream ▸ rfl
  have hclosing : stream.closing = true := by
    have hset : quiet.unregisterWrite.closing = true := by
      subst hquiet
      unfold LoopyStream.unregisterWrite
      dsimp only
      split <;> rfl
    refine Eq.trans ?_ hset
    cases registers <;> exact hstream ▸ rfl
  have hcloses : stream.pc.closes = true := by
    cases registers <;> exact hstream ▸ rfl
  have hwatch (n : ℕ) : stream.watch n = none := by
    cases registers with
    | true => exact hstream ▸ hbare n
    | false =>
      rw [← hstream, if_neg Bool.false_ne_true]
      exact s.stream.refused_watch _ _ (.inl (hbare n))
  have hnone := h.unregisterRead_none
  unfold Sockets.after
  dsimp only
  rw [hopen, if_neg Bool.false_ne_true, s.unregisterRead_eq]
  have hread : Sockets.registeredRead { s with stream, read := s.unregisterRead.read } = false :=
    Sockets.registeredRead_of_bare hnone
  exact
    { owned := h.owned.trans (congrArg Option.toList hstreamFd.symm)
      closes := hclosing.trans hcloses.symm
      others := fun n _ => ⟨hnone n, hwatch n⟩
      reads := fun hr => absurd (hread.symm.trans hr) Bool.false_ne_true
      closed := fun _ => ⟨hread, LoopyStream.registered_of_bare hwatch⟩
      closings := h.closings
      replacements := h.replacements }

/-- `loopyStreamClose` closes the fd behind the callbacks, which have not registered it again. -/
theorem SocketInv.ends (h : SocketInv s) (hpc : s.stream.pc = .drain true none)
    (registers : Bool) :
    SocketInv (s.after registers
      (if registers then s.stream.drainStep true none
      else s.stream.refused (s.stream.drainStep true none) .run) .run) := by
  have hclosing : s.stream.closing = true := by
    rw [h.closes, hpc]
    rfl
  have hbare := h.bare_of_closing hclosing
  obtain ⟨hread, -, hreplacements⟩ := s.closeFd_same
  rw [s.stream.refused_eq (s.stream.drainStep true none) (a := .run) registers
    (fun _ => nofun) rfl]
  unfold Sockets.after
  dsimp only
  rw [if_pos hpc]
  exact
    { owned := h.closeFd_owned
      closes := hclosing
      others := fun n _ => ⟨(congrFun hread n).trans (hbare n).1, (hbare n).2⟩
      reads := fun hr => nomatch hr
      closed := fun _ => ⟨rfl, rfl⟩
      closings := h.closeFd_closings hbare
      replacements := fun r hr => h.replacements r (hreplacements ▸ hr) }

theorem SocketInv.step {a : SocketAction} (h : SocketInv s) (hok : Orderly s a)
    (hstep : s.step a = some s') : SocketInv s' := by
  cases a with
  | bind valid bound =>
    obtain ⟨-, rfl⟩ := of_guard hstep
    unfold Sockets.bind
    repeat' split
    all_goals exact h
  | bind6 socket nonBlock valid bound => exact h.bind6 hok hstep
  | listen ok cb registers => exact h.listen hok hstep
  | act a registers =>
    obtain ⟨stream, hstream, rfl⟩ := Option.map_eq_some_iff.mp hstep
    -- what leaves the socket of the stream alone
    have hkeeps (hsame : SameSocket s.stream stream) (hopen : SameOpen s.stream stream) :
        SocketInv { s with
          stream := if registers then stream else s.stream.refused stream a } := by
      have hadds := (hsame.addsOwn hopen h.closes).refused a registers
      cases registers with
      | true => exact h.keeps hadds hsame.fd hsame.reading
      | false => exact h.keeps hadds hsame.fd hsame.reading
    rcases tailStepped hstream with ⟨cb, rfl, hpc, rfl⟩ | ⟨hother, hstepped⟩
    · exact h.close hpc registers cb
    cases hstepped with
    | write data cb alloc =>
      exact hkeeps (s.stream.write_socket data cb alloc)
        (s.stream.write_connect data cb alloc).toSameOpen
    | writeWithFd data fds cb alloc =>
      exact hkeeps (s.stream.writeWithFd_socket data fds cb alloc)
        (s.stream.writeWithFd_connect data fds cb alloc).toSameOpen
    | tryWrite data r huser h' =>
      exact hkeeps (LoopyStream.tryWrite_socket h') (LoopyStream.tryWrite_connect h').toSameOpen
    | connect address r cb => exact h.connect hok
    | shutdown ok cb huser =>
      exact hkeeps (s.stream.shutdown_socket ok cb) (s.stream.shutdown_connect ok cb).toSameOpen
    | readStart =>
      rw [s.stream.refused_eq
        { s.stream with
          reading := s.stream.reading || (s.stream.fd.isSome && s.stream.readable) }
        (a := .readStart) registers (fun _ => nofun) rfl]
      exact h.readStart hok rfl
    | readStop =>
      rw [s.stream.refused_eq { s.stream with reading := false } (a := .readStop) registers
        (fun _ => nofun) rfl]
      exact h.readStop registers
    | endOfFile => exact hkeeps (.of_eq rfl rfl rfl) ⟨rfl, rfl⟩
    | close cb => exact absurd rfl (hother cb)
    | writable hquiet h' =>
      exact hkeeps (LoopyStream.dispatch_socket h')
        (LoopyStream.dispatch_connect hquiet.1 h').toSameOpen
    | getsockopt ok hpc =>
      have hends := LoopyStream.finishConnect_connect hpc ok
      exact hkeeps (LoopyStream.finishConnect_socket hpc ok) ⟨hends.closing, hends.closes⟩
    | kernel r n hpc hhead h' =>
      exact hkeeps (LoopyStream.kernelWrite_socket h')
        (LoopyStream.kernelWrite_connect hpc h').toSameOpen
    | finishWrite hpc hhead =>
      have hmore : s.stream.pc ≠ .drain true none := by rw [hpc]; nofun
      have hinv := hkeeps (LoopyStream.finishWrite_socket hpc)
        (LoopyStream.finishWrite_connect hpc).toSameOpen
      unfold Sockets.after
      dsimp only
      rw [if_neg hmore]
      exact hinv
    | drainStep closing req hpc =>
      by_cases hends : s.stream.pc = .drain true none
      · obtain ⟨rfl, rfl⟩ := Pc.drain.inj (hpc.symm.trans hends)
        exact h.ends hends registers
      · have hinv := hkeeps (LoopyStream.drainStep_socket hpc hends)
          (LoopyStream.drainStep_connect hpc).toSameOpen
        unfold Sockets.after
        dsimp only
        rw [if_neg hends]
        exact hinv
    | ret h' =>
      exact hkeeps (LoopyStream.callbackReturns_socket h')
        (LoopyStream.callbackReturns_connect h').toSameOpen

end steps

/-- **A stream never closes a registered descriptor**, what waits for the old socket waits for the
new one, and the fd is open, in every state of an orderly run. -/
theorem closes_unregistered {start : LoopyStream} {as : List SocketAction} {s : Sockets}
    (hstart : Created start) (hrun : Run Sockets.step Orderly (.new start) as s) :
    SocketLaw s := by
  have hinv : SocketInv s :=
    hrun.invariant (P := SocketInv) (fun _ _ _ h hok hstep => h.step hok hstep) (.new hstart)
  exact hinv.law

/-- The second socket cannot be opened, the third is bound; a connect fails while a write is
queued, and one to an IPv6 address replaces its socket; the stream reads and is closed. -/
def orderlyRun : List SocketAction :=
  [.bind true false, .bind6 none true true true, .bind6 (some 3) true true true,
    .act (.connect .ipv4 .inProgress true) true, .act (.write [1] true true) true,
    .act .writable true, .act (.getsockopt false) true,
    .act (.connect (.ipv6 (some 5) true) .inProgress true) true, .act .ret true,
    .act .writable true, .act (.getsockopt true) true, .act .ret true, .act .readStart true,
    .act (.close false) true, .act .run true, .act .ret true, .act .run true]

theorem closes_unregistered_orderlyRun :
    ∃ s, Run Sockets.step Orderly (.new (.newTcp 3)) orderlyRun s ∧ SocketLaw s ∧
      s.closings = List.replicate 3 ⟨false, false⟩ ∧ s.owned = [] ∧
      s.replacements = [⟨false, false, false, false⟩, ⟨false, true, false, true⟩] := by
  have hexec : (exec Sockets.step Orderly (.new (.newTcp 3)) orderlyRun).map
      (fun s => (s.closings, s.owned, s.replacements)) =
      some (List.replicate 3 ⟨false, false⟩, [],
        [⟨false, false, false, false⟩, ⟨false, true, false, true⟩]) := by decide +kernel
  obtain ⟨s, hrun, hval⟩ := Run.of_exec_map hexec
  obtain ⟨hclosings, hval⟩ := Prod.mk.inj hval
  obtain ⟨howned, hreplacements⟩ := Prod.mk.inj hval
  exact ⟨s, hrun, closes_unregistered (.newTcp 3) hrun, hclosings, howned, hreplacements⟩

/-- A stream that reads is bound to an IPv6 address. -/
def readingBindRun : List SocketAction := [.act .readStart true, .bind6 (some 4) true true true]

/-- A stream with a write queued is connected to an IPv6 address. -/
def queuedConnectRun : List SocketAction :=
  [.act (.write [1] false true) true, .act (.connect (.ipv6 (some 4) true) .done false) true]

/-- The callback of a write that `loopyStreamClose` drains begins to read. -/
def closingReadRun : List SocketAction :=
  [.act (.write [1] true true) true, .act (.close false) true, .act .run true,
    .act .readStart true, .act .ret true, .act .run true]

/-- Three registered descriptors are closed, and two sockets that replace them are not registered
for what the stream waits for. -/
theorem closes_registered :
    (∃ s, Run Sockets.step (fun _ _ => True) (.new (.newTcp 3)) readingBindRun s ∧
      s.closings = [⟨true, false⟩] ∧ s.replacements = [⟨true, false, false, false⟩] ∧
      ¬ SocketLaw s) ∧
    (∃ s, Run Sockets.step (fun _ _ => True) (.new (.newTcp 3)) queuedConnectRun s ∧
      s.closings = [⟨false, true⟩] ∧ s.replacements = [⟨false, true, false, false⟩] ∧
      ¬ SocketLaw s) ∧
    ∃ s, Run Sockets.step (fun _ _ => True) (.new (.newTcp 3)) closingReadRun s ∧
      s.stream.pc = .closed ∧ s.closings = [⟨true, false⟩] ∧ ¬ SocketLaw s := by
  refine ⟨?_, ?_, ?_⟩
  · have hexec : (exec Sockets.step (fun _ _ => True) (.new (.newTcp 3)) readingBindRun).map
        (fun s => (s.closings, s.replacements)) =
        some ([⟨true, false⟩], [⟨true, false, false, false⟩]) := by decide +kernel
    obtain ⟨s, hrun, hval⟩ := Run.of_exec_map hexec
    obtain ⟨hclosings, hreplacements⟩ := Prod.mk.inj hval
    refine ⟨s, hrun, hclosings, hreplacements, fun hlaw => ?_⟩
    have hread := (hlaw.closings ⟨true, false⟩ (hclosings ▸ List.mem_singleton.mpr rfl)).1
    cases hread
  · have hexec : (exec Sockets.step (fun _ _ => True) (.new (.newTcp 3)) queuedConnectRun).map
        (fun s => (s.closings, s.replacements)) =
        some ([⟨false, true⟩], [⟨false, true, false, false⟩]) := by decide +kernel
    obtain ⟨s, hrun, hval⟩ := Run.of_exec_map hexec
    obtain ⟨hclosings, hreplacements⟩ := Prod.mk.inj hval
    refine ⟨s, hrun, hclosings, hreplacements, fun hlaw => ?_⟩
    have hwrite := (hlaw.closings ⟨false, true⟩ (hclosings ▸ List.mem_singleton.mpr rfl)).2
    cases hwrite
  · have hexec : (exec Sockets.step (fun _ _ => True) (.new (.newTcp 3)) closingReadRun).map
        (fun s => (s.stream.pc, s.closings)) = some (.closed, [⟨true, false⟩]) := by
      decide +kernel
    obtain ⟨s, hrun, hval⟩ := Run.of_exec_map hexec
    obtain ⟨hpc, hclosings⟩ := Prod.mk.inj hval
    refine ⟨s, hrun, hpc, hclosings, fun hlaw => ?_⟩
    have hread := (hlaw.closings ⟨true, false⟩ (hclosings ▸ List.mem_singleton.mpr rfl)).1
    cases hread

end Loopy.Stream
