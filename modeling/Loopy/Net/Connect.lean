import Loopy.Net.Connecting

/-!
# What connecting reports

`loopyNetTcpGenericConnect` falls from its label `error` into `end`, which returns `true`. So it
reports a connection unless `getaddrinfo` fails, and `connect_truthful_iff` says when the report is
true.
-/

namespace Loopy.Net

open Loopy.Lib

/-! ## The promise -/

/-- Nothing has been opened yet; `l->sock` is closed, or it is what the caller has put there. -/
structure LoopyNet.Unused (l : LoopyNet) : Prop where
  sock : l.sock = .closed ∨ l.sock = .caller
  closed : ∀ n, l.sockets n = none

/-- The function returns `true` exactly with a socket in `l->sock` that is connected or may be in
progress; otherwise `l->sock` is closed; and every other socket has been closed. -/
structure Truthful (flags : ConnectFlags) (r : Bool × LoopyNet) : Prop where
  reports : r.1 = true ↔ ∃ n s, r.2.sock = .own n ∧ r.2.sockets n = some s ∧
    (s.state = .connected ∨ flags.NONBLOCK = true ∧ s.state = .inProgress)
  closed : r.1 = false → r.2.sock = .closed
  others : ∀ n, r.2.sock ≠ .own n → r.2.sockets n = none

/-- The addresses, and how many there are to bind to. -/
def Resolved.lists (resolved : Resolved) (bindAddr : Bool) : Option (List Addrinfo × ℕ) :=
  match resolved.servinfo, if bindAddr then resolved.bservinfo else some 0 with
  | some servinfo, some bservinfo => some (servinfo, bservinfo)
  | _, _ => none

section conditions

variable (flags : ConnectFlags) (bservinfo : ℕ) (errno : Errno) (ais : List Addrinfo)

/-- The first address that does not fail in `socket` or `connect` is connected. -/
def Reaches : Prop :=
  Fresh (fun ai => ai.refuses flags bservinfo) errno ais ∧
    ∃ ai ∈ ending (fun ai => ai.refuses flags bservinfo) ais, ai.connects flags bservinfo = true

/-- The `close` at the end of the function leaves `l->sock` closed. -/
def Closes (close : Answer) : Sock → Prop
  | .closed => True
  | .caller => close = .ok
  | .own _ => False

/-- No address is connected, no socket is lost, and `l->sock` is closed at the end. -/
def FailsClosed (sock : Sock) (close : Answer) : Prop :=
  Fresh (fun ai => ai.refuses flags bservinfo) errno ais ∧
    match ending (fun ai => ai.refuses flags bservinfo) ais with
    | some ai => ai.connects flags bservinfo = false ∧ close = .ok
    | none => Closes close (ais.foldl Sock.after sock)

/-- `errno` when no address has been connected. -/
def errnoFailed : Errno :=
  match ending (fun ai => ai.refuses flags bservinfo) ais with
  | some ai => (ai.prepareErrno flags bservinfo).getD errno
  | none => errnoAfter errno ais

end conditions

/-- `getaddrinfo` fails with `l->sock` closed; an address is connected; or none is, everything is
closed again, and the second call without the bind address fails or connects one. -/
def ConnectsTruly (flags : ConnectFlags) (resolved again : Resolved) (bindAddr : Bool)
    (l : LoopyNet) : Prop :=
  let errno := resolved.errno.getD l.errno
  match resolved.lists bindAddr with
  | none => l.sock = .closed
  | some (ais, n) => Reaches flags n errno ais ∨
    bindAddr = true ∧ flags.BEST_EFFORT_BIND = true ∧
      FailsClosed flags n errno ais l.sock resolved.close ∧
      match again.lists false with
      | none => True
      | some (ais', n') =>
        Reaches flags n' (again.errno.getD (errnoFailed flags n errno ais)) ais'

/-! ## What is true of the results -/

section truth

variable {flags : ConnectFlags} {l : LoopyNet} {n : ℕ} {ai : Addrinfo} {ok : Bool}

theorem LoopyNet.Unused.idle (h : l.Unused) : l.Idle := by
  refine ⟨h.closed, fun n hn => ?_⟩
  rcases h.sock with hsock | hsock <;>
  · rw [hsock] at hn
    cases hn

theorem LoopyNet.Unused.kind (h : l.Unused) : l.sock.kind = l.sock := by
  rcases h.sock with hsock | hsock <;> rw [hsock] <;> rfl

/-- A socket that is lost. -/
theorem LoopyNet.Leaks.not_truthful (h : l.Leaks n) : ¬ Truthful flags (ok, l) := by
  intro htrue
  obtain ⟨-, hsock, s, hs⟩ := h
  have hnone := htrue.others n hsock
  rw [hs] at hnone
  cases hnone

theorem LoopyNet.ConnectedTo.truthful (h : l.ConnectedTo flags ai) : Truthful flags (true, l) := by
  have honly : ∃ state, l.Only ai.ai_addr state ∧
      (state = .connected ∨ flags.NONBLOCK = true ∧ state = .inProgress) := by
    rcases h with h | ⟨hflag, h⟩
    · exact ⟨_, h, .inl rfl⟩
    · exact ⟨_, h, .inr ⟨hflag, rfl⟩⟩
  obtain ⟨state, ⟨n, -, hsock, hopen, hothers⟩, hstate⟩ := honly
  refine ⟨⟨fun _ => ⟨n, _, hsock, hopen, hstate⟩, fun _ => rfl⟩, nofun, fun m hm => ?_⟩
  exact hothers m fun heq => hm (heq ▸ hsock)

/-- Nothing is open after a failure. -/
theorem LoopyNet.Idle.not_truthful (h : l.Idle) : ¬ Truthful flags (true, l) := by
  intro htrue
  obtain ⟨n, s, -, hs, -⟩ := htrue.reports.mp rfl
  have hnone := h.closed n
  dsimp only at hs
  rw [hs] at hnone
  cases hnone

theorem LoopyNet.Idle.truthful_iff (h : l.Idle) :
    Truthful flags (false, l) ↔ l.sock = .closed := by
  constructor
  · exact fun htrue => htrue.closed rfl
  · intro hsock
    refine ⟨⟨nofun, ?_⟩, fun _ => hsock, fun n _ => h.closed n⟩
    rintro ⟨n, s, hn, -⟩
    dsimp only at hn
    rw [hsock] at hn
    cases hn

end truth

/-! ## One call without the second one -/

/-- How a call ends that has addresses. -/
inductive Level (flags : ConnectFlags) (n : ℕ) (errno : Errno) (ais : List Addrinfo) (sock : Sock)
    (close : Answer) : Bool × LoopyNet → Prop
  | reaches (l' : LoopyNet) (ai : Addrinfo) (h : Reaches flags n errno ais)
      (hending : ending (fun ai => ai.refuses flags n) ais = some ai)
      (hconnected : l'.ConnectedTo flags ai) : Level flags n errno ais sock close (true, l')
  | closed (l' : LoopyNet) (h : ¬ Reaches flags n errno ais)
      (hfails : FailsClosed flags n errno ais sock close) (hidle : l'.Idle)
      (hsock : l'.sock = .closed) (herrno : l'.errno = errnoFailed flags n errno ais) :
      Level flags n errno ais sock close (true, l')
  | notClosed (l' : LoopyNet) (h : ¬ Reaches flags n errno ais)
      (hfails : ¬ FailsClosed flags n errno ais sock close) (hidle : l'.Idle)
      (hsock : l'.sock ≠ .closed) : Level flags n errno ais sock close (true, l')
  | leaks (l' : LoopyNet) (m : ℕ) (hfresh : ¬ Fresh (fun ai => ai.refuses flags n) errno ais)
      (hleaks : l'.Leaks m) : Level flags n errno ais sock close (true, l')

section level

variable {flags : ConnectFlags} {l : LoopyNet} {n : ℕ} {ais : List Addrinfo} {resolved : Resolved}
  {bindAddr : Bool}

theorem tryConnect_none (h : resolved.lists bindAddr = none) :
    l.tryConnect flags bindAddr resolved =
      (false, { l with errno := resolved.errno.getD l.errno }) := by
  unfold Resolved.lists at h
  unfold LoopyNet.tryConnect
  dsimp only
  cases hserv : resolved.servinfo with
  | none => rfl
  | some servinfo =>
    rw [hserv] at h
    dsimp only
    split
    · rfl
    · next bservinfo hbserv =>
      rw [hbserv] at h
      cases h

theorem tryConnect_some (h : resolved.lists bindAddr = some (ais, n)) :
    l.tryConnect flags bindAddr resolved =
      match tryEach (LoopyNet.connectTo flags n)
        { l with errno := resolved.errno.getD l.errno } ais with
      | (some .done, l) => (true, l)
      | (_, l) => (true, l.loopyNetSocketClose resolved.close) := by
  unfold Resolved.lists at h
  unfold LoopyNet.tryConnect
  dsimp only
  cases hserv : resolved.servinfo with
  | none =>
    rw [hserv] at h
    cases h
  | some servinfo =>
    rw [hserv] at h
    dsimp only
    split
    · next hbserv =>
      rw [hbserv] at h
      cases h
    · next bservinfo hbserv =>
      rw [hbserv] at h
      cases h
      rfl

/-- The `close` at the end, when no socket is open. -/
theorem LoopyNet.Idle.close (h : l.Idle) (close : Answer) :
    (l.loopyNetSocketClose close).Idle ∧
      ((l.loopyNetSocketClose close).sock = .closed ↔ Closes close l.sock.kind) ∧
      (Closes close l.sock.kind → (l.loopyNetSocketClose close).errno = l.errno) := by
  obtain ⟨sock, reuseport, loadBalance, errno, sockets, count⟩ := l
  unfold LoopyNet.loopyNetSocketClose
  cases sock with
  | closed => exact ⟨h, ⟨fun _ => trivial, fun _ => rfl⟩, fun _ => rfl⟩
  | caller =>
    cases close with
    | ok => exact ⟨⟨h.closed, nofun⟩, ⟨fun _ => rfl, fun _ => rfl⟩, fun _ => rfl⟩
    | error e => exact ⟨⟨h.closed, nofun⟩, ⟨nofun, nofun⟩, nofun⟩
  | own m =>
    have hm : sockets m = none := h.closed m
    dsimp only
    rw [hm]
    exact ⟨⟨h.closed, h.sock⟩, ⟨nofun, False.elim⟩, False.elim⟩

theorem LoopyNet.Idle.connectLoop (h : l.Idle) (flags : ConnectFlags) (n : ℕ) (ais : List Addrinfo) :
    LoopResult (fun ai => ai.refuses flags n) (fun ai => ai.connects flags n)
      (LoopyNet.NotPrepared flags n) (LoopyNet.ConnectedTo flags) l.errno l.sock.kind ais
      (tryEach (LoopyNet.connectTo flags n) l ais) :=
  loop_result (Keeps.connectTo flags n) (fun _ _ _ hidle => hidle.connectTo) h

theorem kind_closed {s : Sock} (h : s.kind = .closed) : s = .closed := by
  cases s with
  | own m => cases h
  | closed => rfl
  | caller => cases h

theorem LoopyNet.Idle.level (h : l.Idle) (hlists : resolved.lists bindAddr = some (ais, n)) :
    Level flags n (resolved.errno.getD l.errno) ais l.sock.kind resolved.close
      (l.tryConnect flags bindAddr resolved) := by
  have hidle : LoopyNet.Idle { l with errno := resolved.errno.getD l.errno } := ⟨h.closed, h.sock⟩
  have hloop := hidle.connectLoop flags n ais
  rw [tryConnect_some hlists]
  dsimp only at hloop
  generalize tryEach (LoopyNet.connectTo flags n) { l with errno := resolved.errno.getD l.errno } ais =
    r at hloop
  cases hloop with
  | exhausted l' hfresh hending hidle herrno hsock =>
    have hnot : ¬ Reaches flags n (resolved.errno.getD l.errno) ais := by
      rintro ⟨-, ai, hai, -⟩
      rw [hending] at hai
      cases hai
    obtain ⟨hidle', hclosed, herrno'⟩ := hidle.close resolved.close
    have hfails : FailsClosed flags n (resolved.errno.getD l.errno) ais l.sock.kind resolved.close ↔
        Closes resolved.close l'.sock.kind := by
      unfold FailsClosed
      rw [hending, hsock]
      exact and_iff_right hfresh
    by_cases hcloses : Closes resolved.close l'.sock.kind
    · refine .closed _ hnot (hfails.mpr hcloses) hidle' (hclosed.mpr hcloses) ?_
      rw [herrno' hcloses, herrno, errnoFailed, hending]
    · exact .notClosed _ hnot (fun h => hcloses (hfails.mp h)) hidle'
        (fun h => hcloses (hclosed.mp h))
  | leaked _ m hstale hleaks =>
    obtain ⟨exit, l'⟩ := r
    -- the end of the function does not find the socket either
    have hclose := (Keeps.socketClose l' resolved.close).leaks m hleaks
    rcases exit with _ | (_ | _)
    · exact .leaks _ m hstale hclose
    · exact .leaks _ m hstale hclose
    · exact .leaks _ m hstale hleaks
  | stopped l' ai hfresh hending hfails h =>
    obtain ⟨honly, herrno⟩ := h
    have hnot : ¬ Reaches flags n (resolved.errno.getD l.errno) ais := by
      rintro ⟨-, b, hb, hconnects⟩
      rw [hending] at hb
      obtain rfl := Option.some.inj hb
      rw [hfails] at hconnects
      cases hconnects
    obtain ⟨hidle', herrno', hkind⟩ := honly.close resolved.close
    cases hclose : resolved.close with
    | ok =>
      have hclosed : FailsClosed flags n (resolved.errno.getD l.errno) ais l.sock.kind .ok := by
        refine ⟨hfresh, ?_⟩
        rw [hending]
        exact ⟨hfails, rfl⟩
      rw [hclose] at hidle' herrno' hkind
      refine .closed _ hnot hclosed hidle' (kind_closed hkind) ?_
      rw [herrno', errnoFailed, hending]
      exact (congrArg (fun e => Option.getD e _) herrno).symm
    | error e =>
      rw [hclose] at hidle' hkind
      refine .notClosed _ hnot ?_ hidle' fun hsock => ?_
      · rintro ⟨-, hclosed⟩
        rw [hending] at hclosed
        cases hclosed.2
      · rw [hsock] at hkind
        cases hkind
  | done l' ai hfresh hending hsucceeds h =>
    exact .reaches l' ai ⟨hfresh, ai, hending, hsucceeds⟩ hending h

/-- What is said of results is true of a connection, and of no other one that says `true`. -/
structure Tells (flags : ConnectFlags) (n : ℕ) (ais : List Addrinfo)
    (T : Bool × LoopyNet → Prop) : Prop where
  connected : ∀ {l' : LoopyNet} {ai : Addrinfo},
    ending (fun ai => ai.refuses flags n) ais = some ai → ai.connects flags n = true →
      l'.ConnectedTo flags ai → T (true, l')
  idle : ∀ {l' : LoopyNet}, l'.Idle → ¬ T (true, l')
  leaks : ∀ {ok : Bool} {l' : LoopyNet} {m : ℕ}, l'.Leaks m → ¬ T (ok, l')

theorem tells_truthful : Tells flags n ais (Truthful flags) where
  connected _ _ hconnected := hconnected.truthful
  idle := LoopyNet.Idle.not_truthful
  leaks := LoopyNet.Leaks.not_truthful

/-- It is true of a call without a second one if that connects an address. -/
theorem Tells.level_iff {T : Bool × LoopyNet → Prop} (hT : Tells flags n ais T) {errno : Errno}
    {sock : Sock} {close : Answer} {r : Bool × LoopyNet}
    (h : Level flags n errno ais sock close r) : T r ↔ Reaches flags n errno ais := by
  cases h with
  | reaches l' ai h hending hconnected =>
    obtain ⟨-, b, hb, hconnects⟩ := id h
    obtain rfl : ai = b := Option.some.inj (hending.symm.trans hb)
    exact iff_of_true (hT.connected hending hconnects hconnected) h
  | closed l' h hfails hidle hsock herrno => exact iff_of_false (hT.idle hidle) h
  | notClosed l' h hfails hidle hsock => exact iff_of_false (hT.idle hidle) h
  | leaks l' m hfresh hleaks => exact iff_of_false (hT.leaks hleaks) fun h => hfresh h.1

/-- What was lost before is lost after a second call. -/
theorem leaks_tryConnect {m : ℕ} (h : l.Leaks m) (flags : ConnectFlags) (bindAddr : Bool)
    (resolved : Resolved) : (l.tryConnect flags bindAddr resolved).2.Leaks m := by
  cases hlists : resolved.lists bindAddr with
  | none =>
    rw [tryConnect_none hlists]
    exact h
  | some lists =>
    obtain ⟨ais, n⟩ := lists
    rw [tryConnect_some hlists]
    have hbefore : LoopyNet.Leaks { l with errno := resolved.errno.getD l.errno } m := h
    have hloop : LoopyNet.Leaks (tryEach (LoopyNet.connectTo flags n) _ ais).2 m :=
      tryEach_invariant (P := fun l => l.Leaks m)
        (fun l ai h => (Keeps.connectTo flags n l ai).leaks m h) hbefore
    generalize tryEach (LoopyNet.connectTo flags n)
      { l with errno := resolved.errno.getD l.errno } ais = r at hloop
    obtain ⟨exit, l'⟩ := r
    have hclose := (Keeps.socketClose l' resolved.close).leaks m hloop
    rcases exit with _ | (_ | _)
    · exact hclose
    · exact hclose
    · exact hloop

/-- The second call finds everything closed. -/
theorem LoopyNet.Idle.again_iff (h : l.Idle) (hsock : l.sock = .closed) (again : Resolved) :
    Truthful flags (l.tryConnect flags false again) ↔
      match again.lists false with
      | none => True
      | some (ais, n) => Reaches flags n (again.errno.getD l.errno) ais := by
  cases hlists : again.lists false with
  | none =>
    rw [tryConnect_none hlists]
    have hidle : LoopyNet.Idle { l with errno := again.errno.getD l.errno } := ⟨h.closed, h.sock⟩
    exact iff_true_intro (hidle.truthful_iff.mpr hsock)
  | some lists =>
    obtain ⟨ais, n⟩ := lists
    exact tells_truthful.level_iff (h.level hlists)

theorem LoopyNet.ConnectedTo.sock_ne {ai : Addrinfo} (h : l.ConnectedTo flags ai) :
    l.sock ≠ .closed := by
  intro hsock
  rcases h with ⟨m, -, hown, -⟩ | ⟨-, m, -, hown, -⟩ <;>
  · rw [hown] at hsock
    cases hsock

/-- A call that finds no addresses. -/
theorem genericConnect_none {again : Resolved} (hlists : resolved.lists bindAddr = none) :
    l.loopyNetTcpGenericConnect flags resolved again bindAddr =
      (false, { l with errno := resolved.errno.getD l.errno }) := by
  cases bindAddr with
  | false => exact tryConnect_none hlists
  | true => rw [LoopyNet.loopyNetTcpGenericConnect, tryConnect_none hlists]

/-- It is true of a call that connects an address, or that closes everything again and whose second
call it is true of. -/
theorem Tells.generic_iff {T : Bool × LoopyNet → Prop} (hT : Tells flags n ais T) (h : l.Unused)
    (hlists : resolved.lists bindAddr = some (ais, n)) {again : Resolved} {Second : Prop}
    (hsecond : bindAddr = true → flags.BEST_EFFORT_BIND = true → ∀ {l' : LoopyNet}, l'.Idle →
      l'.sock = .closed → l'.errno = errnoFailed flags n (resolved.errno.getD l.errno) ais →
        (T (l'.tryConnect flags false again) ↔ Second)) :
    T (l.loopyNetTcpGenericConnect flags resolved again bindAddr) ↔
      Reaches flags n (resolved.errno.getD l.errno) ais ∨ bindAddr = true ∧
        flags.BEST_EFFORT_BIND = true ∧
        FailsClosed flags n (resolved.errno.getD l.errno) ais l.sock resolved.close ∧ Second := by
  have hlevel : Level flags n _ ais _ _ _ := h.idle.level hlists
  rw [h.kind] at hlevel
  cases bindAddr with
  | false =>
    rw [or_iff_left (fun hboth => absurd hboth.1 Bool.false_ne_true)]
    exact hT.level_iff hlevel
  | true =>
    rw [LoopyNet.loopyNetTcpGenericConnect]
    have hfirst := hT.level_iff hlevel
    generalize l.tryConnect flags true resolved = r at hlevel hfirst
    cases hlevel with
    | reaches l' ai hreaches hending hconnected =>
      dsimp only
      rw [if_neg fun hboth => hconnected.sock_ne hboth.1]
      exact iff_of_true (hfirst.mpr hreaches) (.inl hreaches)
    | closed l' hnot hfails hidle hsock herrno =>
      dsimp only
      rw [or_iff_right hnot]
      by_cases hflag : flags.BEST_EFFORT_BIND = true
      · rw [if_pos ⟨hsock, hflag⟩, hsecond rfl hflag hidle hsock herrno]
        exact ⟨fun hagain => ⟨rfl, hflag, hfails, hagain⟩, fun hall => hall.2.2.2⟩
      · rw [if_neg fun hboth => hflag hboth.2]
        exact iff_of_false (hT.idle hidle) fun hall => hflag hall.2.1
    | notClosed l' hnot hfails hidle hsock =>
      dsimp only
      rw [if_neg fun hboth => hsock hboth.1, or_iff_right hnot]
      exact iff_of_false (hT.idle hidle) fun hall => hfails hall.2.2.1
    | leaks l' m hfresh hleaks =>
      refine iff_of_false ?_ ?_
      · dsimp only
        split_ifs
        · exact hT.leaks (leaks_tryConnect hleaks flags false again)
        · exact hT.leaks hleaks
      · rintro (hreaches | hfails)
        · exact hfresh hreaches.1
        · exact hfresh hfails.2.2.1.1

end level

/-- **Connecting reports the truth** in exactly these cases. -/
theorem connect_truthful_iff {flags : ConnectFlags} {l : LoopyNet} {resolved again : Resolved}
    {bindAddr : Bool} (h : l.Unused) :
    Truthful flags (l.loopyNetTcpGenericConnect flags resolved again bindAddr) ↔
      ConnectsTruly flags resolved again bindAddr l := by
  unfold ConnectsTruly
  dsimp only
  cases hlists : resolved.lists bindAddr with
  | none =>
    have hidle : LoopyNet.Idle { l with errno := resolved.errno.getD l.errno } :=
      ⟨h.closed, h.idle.sock⟩
    rw [genericConnect_none hlists]
    exact hidle.truthful_iff
  | some lists =>
    obtain ⟨ais, n⟩ := lists
    refine tells_truthful.generic_iff h hlists fun _ _ l' hidle hsock herrno => ?_
    rw [← herrno]
    exact hidle.again_iff hsock again

theorem LoopyNet.unused_new : LoopyNet.new.Unused := ⟨.inl rfl, fun _ => rfl⟩

/-- `getaddrinfo` finds these addresses, and one to bind to. -/
def Resolved.of (ais : List Addrinfo) : Resolved := ⟨some ais, some 1, none, .ok⟩

/-- The first address refuses the connection, the second one takes it. -/
theorem connect_truthful_iff_second :
    Truthful ⟨true, false⟩ (LoopyNet.new.loopyNetTcpGenericConnect ⟨true, false⟩
      (.of [{ Addrinfo.good 1 with connect := .error (.other 111) },
        { Addrinfo.good 2 with connect := .error .EINPROGRESS }]) (.of []) true) :=
  (connect_truthful_iff LoopyNet.unused_new).mpr (.inl ⟨by decide, _, rfl, by decide⟩)

/-- The only address refuses the connection, and the function returns `true`. -/
theorem connect_not_truthful :
    ∃ resolved again l', LoopyNet.new.loopyNetTcpGenericConnect ⟨false, false⟩ resolved again false =
      (true, l') ∧ l'.sock = .closed ∧
      ¬ Truthful ⟨false, false⟩
        (LoopyNet.new.loopyNetTcpGenericConnect ⟨false, false⟩ resolved again false) := by
  refine ⟨.of [{ Addrinfo.good 1 with connect := .error (.other 111) }], .of [], _, rfl, rfl,
    fun htrue => ?_⟩
  -- no socket is open
  obtain ⟨n, s, hsock, -⟩ := htrue.reports.mp rfl
  cases hsock

end Loopy.Net
