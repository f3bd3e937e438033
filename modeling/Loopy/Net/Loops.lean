import Loopy.Net.Sockets

/-!
# The loops over the addresses

Both loops try one address after the other (`LoopResult`). An address is passed over, ends the loop,
or its socket is lost: `loopyNetSocketNewFromAddrinfo` takes the `errno` of an earlier failure for one
of the `socket` call that has just succeeded (`NoStale` says that it never does).
-/

namespace Loopy.Net

open Loopy.Lib
open Function (update update_of_ne update_self)

/-! ## Addresses -/

namespace Answer

/-- The error of a call that has failed. -/
def error? : Answer → Option Errno
  | .ok => none
  | .error errno => some errno

end Answer

namespace Addrinfo

/-- What is in `errno` when an address has been passed over. -/
def leaves (ai : Addrinfo) : Errno :=
  match ai.socket, ai.close, ai.connect with
  | .error errno, _, _ => errno
  | .ok, .error errno, _ => errno
  | .ok, .ok, .error errno => errno
  | .ok, .ok, .ok => .other 0

/-- `errno` says after a successful call of `socket` that the call has failed. -/
def Stale (ai : Addrinfo) (errno : Errno) : Prop :=
  ai.socket = .ok ∧ ai.socketErrno.getD errno = .EAFNOSUPPORT

end Addrinfo

/-- No socket of these addresses is lost, if each of them but the last is passed over. -/
def NoStale : Errno → List Addrinfo → Prop
  | _, [] => True
  | errno, ai :: ais => ¬ ai.Stale errno ∧ NoStale ai.leaves ais

instance (ai : Addrinfo) (errno : Errno) : Decidable (ai.Stale errno) :=
  inferInstanceAs (Decidable (_ ∧ _))

instance : ∀ errno ais, Decidable (NoStale errno ais)
  | _, [] => isTrue trivial
  | _, ai :: ais =>
    have := instDecidableNoStale ai.leaves ais
    inferInstanceAs (Decidable (_ ∧ _))

/-- `l->sock` without the number of a socket. -/
def Sock.kind : Sock → Sock
  | .own _ => .own 0
  | s => s

/-- `l->sock` after an address has been passed over. -/
def Sock.after (s : Sock) (ai : Addrinfo) : Sock :=
  match ai.socket, ai.close with
  | .error _, _ => s
  | .ok, .ok => .closed
  | .ok, .error _ => .own 0

namespace LoopyNet

/-- No socket is open. -/
structure Idle (l : LoopyNet) : Prop where
  closed : ∀ n, l.sockets n = none
  sock : ∀ n, l.sock = .own n → n < l.count

/-- A socket is open that nothing refers to. -/
def Leaks (l : LoopyNet) (n : ℕ) : Prop :=
  n < l.count ∧ l.sock ≠ .own n ∧ ∃ s, l.sockets n = some s

/-- The socket in `l->sock` is the only one that is open. -/
def Only (l : LoopyNet) (ai_addr : ℕ) (state : SocketState) : Prop :=
  ∃ n < l.count, l.sock = .own n ∧ l.sockets n = some ⟨ai_addr, state⟩ ∧
    ∀ m ≠ n, l.sockets m = .none

/-- The socket of an address has been opened. -/
def opened (l : LoopyNet) (ai : Addrinfo) : LoopyNet :=
  { l with
    errno := ai.socketErrno.getD l.errno
    sockets := update l.sockets l.count (some ⟨ai.ai_addr, .new⟩)
    count := l.count + 1
    sock := .own l.count }

end LoopyNet

/-! ## One address -/

namespace LoopyNet

variable {l : LoopyNet} {ai : Addrinfo} {n : ℕ}

theorem sysCall_ok {answer : Answer} (h : answer = .ok) : l.sysCall answer = (true, l) := by
  rw [h, sysCall]

/-- `loopyNetSocketNewFromAddrinfo` fails with `socket`, fails with an old `errno`, or opens the
socket. -/
theorem socketNew_error {errno : Errno} (h : ai.socket = .error errno) :
    l.loopyNetSocketNewFromAddrinfo ai = (false, { l with errno := errno }) := by
  unfold loopyNetSocketNewFromAddrinfo socket
  rw [h]
  dsimp only
  split_ifs <;> rfl

theorem socketNew_stale (h : ai.Stale l.errno) :
    l.loopyNetSocketNewFromAddrinfo ai = (false, { l.opened ai with sock := l.sock }) := by
  unfold loopyNetSocketNewFromAddrinfo socket
  rw [h.1]
  exact if_pos h.2

theorem socketNew_ok (h : ai.socket = .ok) (hfresh : ¬ ai.Stale l.errno) :
    l.loopyNetSocketNewFromAddrinfo ai = (true, l.opened ai) := by
  unfold loopyNetSocketNewFromAddrinfo socket
  rw [h]
  exact if_neg fun hstale => hfresh ⟨h, hstale⟩

/-- The socket that is lost. -/
theorem Idle.leaks_of_stale (h : l.Idle) : Leaks { l.opened ai with sock := l.sock } l.count :=
  ⟨Nat.lt_succ_self _, fun hsock => Nat.lt_irrefl _ (h.sock _ hsock), _, update_self ..⟩

/-- The sockets of an address that has just been opened. -/
theorem Idle.only_opened (h : l.Idle) (ai : Addrinfo) (errno : Errno) :
    Only { l.opened ai with errno := errno } ai.ai_addr .new :=
  ⟨l.count, Nat.lt_succ_self _, rfl, update_self ..,
    fun m hm => (update_of_ne hm ..).trans (h.closed m)⟩

theorem Only.setState {a : ℕ} {state : SocketState} (h : l.Only a state) (state' : SocketState) :
    (l.setState state').Only a state' := by
  obtain ⟨n, hcount, hsock, hopen, hothers⟩ := h
  unfold LoopyNet.setState
  rw [hsock]
  dsimp only
  refine ⟨n, hcount, rfl, ?_, fun m hm => (update_of_ne hm ..).trans (hothers m hm)⟩
  dsimp only
  rw [update_self, hopen]
  rfl

/-- The socket in `l->sock` is closed. -/
theorem Only.close {a : ℕ} {state : SocketState} (h : l.Only a state) (close : Answer) :
    (l.loopyNetSocketClose close).Idle ∧
      (l.loopyNetSocketClose close).errno = (close.error?.getD l.errno) ∧
      (l.loopyNetSocketClose close).sock.kind = if close = .ok then .closed else .own 0 := by
  obtain ⟨n, hcount, hsock, hopen, hothers⟩ := h
  have hnone (m : ℕ) : update l.sockets n none m = none := by
    by_cases hm : m = n
    · rw [hm, update_self]
    · rw [update_of_ne hm]
      exact hothers m hm
  unfold loopyNetSocketClose
  rw [hsock]
  dsimp only
  rw [hopen]
  cases close with
  | ok => exact ⟨⟨hnone, nofun⟩, rfl, rfl⟩
  | error errno =>
    refine ⟨⟨hnone, fun m hm => ?_⟩, rfl, (if_neg nofun).symm⟩
    cases hm
    exact hcount

end LoopyNet

/-! ## What is lost stays lost -/

/-- The flags of the server are as they were, and sockets that were lost still are. -/
structure Keeps (l l' : LoopyNet) : Prop where
  reuseport : l'.SERVER_REUSEPORT = l.SERVER_REUSEPORT
  loadBalance : l'.SERVER_L4_LOAD_BALANCE = l.SERVER_L4_LOAD_BALANCE
  leaks : ∀ n, l.Leaks n → l'.Leaks n

namespace Keeps

variable {l l' l'' : LoopyNet} {α : Type}

theorem refl (l : LoopyNet) : Keeps l l := ⟨rfl, rfl, fun _ h => h⟩

theorem trans (h : Keeps l l') (h' : Keeps l' l'') : Keeps l l'' :=
  ⟨h'.reuseport.trans h.reuseport, h'.loadBalance.trans h.loadBalance,
    fun n hn => h'.leaks n (h.leaks n hn)⟩

/-- A call that may fail, and what follows in either case. -/
theorem bind {r : Bool × LoopyNet} {f g : LoopyNet → α × LoopyNet} (h : Keeps l r.2)
    (hf : ∀ l', Keeps l l' → Keeps l (f l').2) (hg : ∀ l', Keeps l l' → Keeps l (g l').2) :
    Keeps l (match r with
      | (false, l) => f l
      | (true, l) => g l).2 := by
  obtain ⟨ok, l'⟩ := r
  cases ok with
  | false => exact hf l' h
  | true => exact hg l' h

theorem errno (l : LoopyNet) (errno : Errno) : Keeps l { l with errno := errno } :=
  ⟨rfl, rfl, fun _ h => h⟩

theorem sysCall (l : LoopyNet) (answer : Answer) : Keeps l (l.sysCall answer).2 := by
  cases answer with
  | ok => exact refl l
  | error e => exact errno l e

theorem socketNew (l : LoopyNet) (ai : Addrinfo) :
    Keeps l (l.loopyNetSocketNewFromAddrinfo ai).2 := by
  cases hsocket : ai.socket with
  | error e =>
    rw [LoopyNet.socketNew_error hsocket]
    exact errno l e
  | ok =>
    have hopen {n : ℕ} (hn : l.Leaks n) : ∃ s, (l.opened ai).sockets n = some s := by
      obtain ⟨hlt, -, s, hs⟩ := hn
      exact ⟨s, (update_of_ne (Nat.ne_of_lt hlt) ..).trans hs⟩
    by_cases hstale : ai.Stale l.errno
    · rw [LoopyNet.socketNew_stale hstale]
      exact ⟨rfl, rfl, fun n hn => ⟨Nat.lt_succ_of_lt hn.1, hn.2.1, hopen hn⟩⟩
    · rw [LoopyNet.socketNew_ok hsocket hstale]
      refine ⟨rfl, rfl, fun n hn => ⟨Nat.lt_succ_of_lt hn.1, fun hsock => ?_, hopen hn⟩⟩
      have hcount := Sock.own.inj hsock
      exact Nat.ne_of_lt hn.1 hcount.symm

theorem socketClose (l : LoopyNet) (close : Answer) : Keeps l (l.loopyNetSocketClose close) := by
  obtain ⟨sock, reuseport, loadBalance, errno, sockets, count⟩ := l
  unfold LoopyNet.loopyNetSocketClose
  cases sock with
  | closed => exact refl _
  | caller =>
    cases close with
    | ok => exact ⟨rfl, rfl, fun n hn => ⟨hn.1, nofun, hn.2.2⟩⟩
    | error e => exact ⟨rfl, rfl, fun n hn => hn⟩
  | own m =>
    dsimp only
    cases hm : sockets m with
    | none => exact ⟨rfl, rfl, fun n hn => hn⟩
    | some s =>
      have hother {n : ℕ} (hsock : Sock.own m ≠ .own n) {s : Socket} (hs : sockets n = some s) :
          update sockets m none n = some s :=
        (update_of_ne (fun heq => hsock (congrArg Sock.own heq.symm)) ..).trans hs
      cases close with
      | ok =>
        refine ⟨rfl, rfl, fun n hn => ?_⟩
        obtain ⟨hlt, hsock, s, hs⟩ := hn
        exact ⟨hlt, nofun, s, hother hsock hs⟩
      | error e =>
        refine ⟨rfl, rfl, fun n hn => ?_⟩
        obtain ⟨hlt, hsock, s, hs⟩ := hn
        exact ⟨hlt, hsock, s, hother hsock hs⟩

theorem setState (l : LoopyNet) (state : SocketState) : Keeps l (l.setState state) := by
  obtain ⟨sock, reuseport, loadBalance, errno, sockets, count⟩ := l
  unfold LoopyNet.setState
  cases sock with
  | closed => exact refl _
  | caller => exact refl _
  | own m =>
    refine ⟨rfl, rfl, fun n hn => ?_⟩
    obtain ⟨hlt, hsock, s, hs⟩ := hn
    have hne : n ≠ m := fun heq => hsock (congrArg Sock.own heq.symm)
    exact ⟨hlt, hsock, s, (update_of_ne hne ..).trans hs⟩

theorem bindAny (l : LoopyNet) (bind : ℕ → Answer) (bs : List ℕ) :
    Keeps l (l.bindAny bind bs).2 := by
  induction bs generalizing l with
  | nil => exact refl l
  | cons b bs ih =>
    rw [LoopyNet.bindAny]
    cases hb : bind b with
    | ok => exact refl l
    | error e => exact (errno l e).trans (ih _)

theorem bindTo (l : LoopyNet) (ai : Addrinfo) (n : ℕ) : Keeps l (l.bindTo ai n).2 := by
  unfold LoopyNet.bindTo
  split_ifs
  · exact refl l
  · exact bindAny ..

theorem nonBlockEnable (l : LoopyNet) (ai : Addrinfo) :
    Keeps l (l.loopyNetNonBlockEnable ai).2 :=
  bind (sysCall l _) (fun _ h => h) fun l' h => h.trans (sysCall l' _)

theorem connectTo (flags : ConnectFlags) (n : ℕ) (l : LoopyNet) (ai : Addrinfo) :
    Keeps l (l.connectTo flags n ai).2 := by
  unfold LoopyNet.connectTo
  refine bind (socketNew l ai) (fun l' h => h) fun l' h => ?_
  refine bind (h.trans (sysCall l' _)) (fun l' h => h) fun l' h => ?_
  refine bind (h.trans ?_) (fun l' h => h) fun l' h => ?_
  · split_ifs
    · exact nonBlockEnable l' ai
    · exact refl l'
  · refine bind (h.trans (bindTo l' ai n)) (fun l' h => h) fun l' h => ?_
    have hconnect := h.trans (sysCall l' ai.connect)
    generalize l'.sysCall ai.connect = r at hconnect
    obtain ⟨ok, l''⟩ := r
    cases ok with
    | true => exact hconnect.trans (setState l'' .connected)
    | false =>
      dsimp only
      split_ifs
      · exact hconnect.trans (setState l'' .inProgress)
      · exact hconnect.trans (socketClose l'' ai.close)

theorem listen (l : LoopyNet) (ai : Addrinfo) : Keeps l (l.loopyNetListen ai).2 := by
  unfold LoopyNet.loopyNetListen
  refine bind ?_ (fun l' h => h) fun l' h => ?_
  · split_ifs
    · exact sysCall l _
    · exact refl l
  · refine bind (h.trans ?_) (fun l' h => h) fun l' h => ?_
    · split_ifs
      · exact sysCall l' _
      · exact refl l'
    · refine bind (h.trans (sysCall l' _)) (fun l' h => h.trans (socketClose l' _)) fun l' h => ?_
      exact bind (h.trans (sysCall l' _)) (fun l' h => h.trans (socketClose l' _))
        fun l' h => h.trans (setState l' _)

theorem listenOn (inet6 : Bool) (l : LoopyNet) (ai : Addrinfo) :
    Keeps l (l.listenOn inet6 ai).2 := by
  unfold LoopyNet.listenOn
  refine bind (socketNew l ai) (fun l' h => h) fun l' h => ?_
  refine bind (h.trans ?_) (fun l' h => h.trans (socketClose l' _)) fun l' h => ?_
  · split_ifs
    · exact sysCall l' _
    · exact refl l'
  · refine bind (h.trans (sysCall l' _)) (fun l' h => h.trans (socketClose l' _)) fun l' h => ?_
    exact bind (h.trans (listen l' ai)) (fun l' h => h) fun l' h => h

end Keeps

/-! ## The loop -/

/-- What a loop does with one address. -/
inductive Attempted (goesOn succeeds : Addrinfo → Bool) (Stopped Done : Addrinfo → LoopyNet → Prop)
    (l : LoopyNet) (ai : Addrinfo) : Option Exit × LoopyNet → Prop
  | passes (l' : LoopyNet) (hgoes : goesOn ai = true) (hfresh : ¬ ai.Stale l.errno) (hidle : l'.Idle)
      (herrno : l'.errno = ai.leaves) (hsock : l'.sock.kind = l.sock.kind.after ai) :
      Attempted goesOn succeeds Stopped Done l ai (none, l')
  | leaks (l' : LoopyNet) (n : ℕ) (hstale : ai.Stale l.errno) (hleaks : l'.Leaks n) :
      Attempted goesOn succeeds Stopped Done l ai (none, l')
  | stops (l' : LoopyNet) (hgoes : goesOn ai = false) (hfresh : ¬ ai.Stale l.errno)
      (hfails : succeeds ai = false) (h : Stopped ai l') :
      Attempted goesOn succeeds Stopped Done l ai (some .error, l')
  | succeeds (l' : LoopyNet) (hgoes : goesOn ai = false) (hfresh : ¬ ai.Stale l.errno)
      (hsucceeds : succeeds ai = true) (h : Done ai l') :
      Attempted goesOn succeeds Stopped Done l ai (some .done, l')

section loop

variable (goesOn succeeds : Addrinfo → Bool)

/-- The addresses that are passed over. -/
def tried (ais : List Addrinfo) : List Addrinfo := ais.takeWhile goesOn

/-- The address that ends the loop. -/
def ending (ais : List Addrinfo) : Option Addrinfo := ais.find? fun ai => !goesOn ai

/-- No socket is lost in the loop. -/
def Fresh (errno : Errno) (ais : List Addrinfo) : Prop :=
  NoStale errno (tried goesOn ais ++ (ending goesOn ais).toList)

instance (errno : Errno) (ais : List Addrinfo) : Decidable (Fresh goesOn errno ais) :=
  inferInstanceAs (Decidable (NoStale ..))

/-- `errno` after all addresses have been passed over. -/
def errnoAfter (errno : Errno) (ais : List Addrinfo) : Errno :=
  (ais.getLast?.map Addrinfo.leaves).getD errno

/-- How the loop ends. -/
inductive LoopResult (Stopped Done : Addrinfo → LoopyNet → Prop) (errno : Errno) (sock : Sock)
    (ais : List Addrinfo) : Option Exit × LoopyNet → Prop
  | exhausted (l' : LoopyNet) (hfresh : Fresh goesOn errno ais) (hending : ending goesOn ais = none)
      (hidle : l'.Idle) (herrno : l'.errno = errnoAfter errno ais)
      (hsock : l'.sock.kind = ais.foldl Sock.after sock) :
      LoopResult Stopped Done errno sock ais (none, l')
  | leaked (r : Option Exit × LoopyNet) (n : ℕ) (hstale : ¬ Fresh goesOn errno ais)
      (hleaks : r.2.Leaks n) : LoopResult Stopped Done errno sock ais r
  | stopped (l' : LoopyNet) (ai : Addrinfo) (hfresh : Fresh goesOn errno ais)
      (hending : ending goesOn ais = some ai) (hfails : succeeds ai = false) (h : Stopped ai l') :
      LoopResult Stopped Done errno sock ais (some .error, l')
  | done (l' : LoopyNet) (ai : Addrinfo) (hfresh : Fresh goesOn errno ais)
      (hending : ending goesOn ais = some ai) (hsucceeds : succeeds ai = true) (h : Done ai l') :
      LoopResult Stopped Done errno sock ais (some .done, l')

variable {goesOn succeeds} {Stopped Done : Addrinfo → LoopyNet → Prop} {l : LoopyNet} {ai : Addrinfo}
  {ais : List Addrinfo} {errno : Errno} {sock : Sock}

theorem ending_pass (hgoes : goesOn ai = true) : ending goesOn (ai :: ais) = ending goesOn ais := by
  refine List.find?_cons_of_neg ?_
  rw [hgoes]
  exact Bool.false_ne_true

theorem ending_stop (hgoes : goesOn ai = false) : ending goesOn (ai :: ais) = some ai := by
  refine List.find?_cons_of_pos ?_
  rw [hgoes]
  rfl

theorem fresh_pass (hgoes : goesOn ai = true) :
    Fresh goesOn errno (ai :: ais) ↔ ¬ ai.Stale errno ∧ Fresh goesOn ai.leaves ais := by
  unfold Fresh tried
  rw [ending_pass hgoes, List.takeWhile_cons_of_pos hgoes, List.cons_append, NoStale]

theorem fresh_stop (hgoes : goesOn ai = false) :
    Fresh goesOn errno (ai :: ais) ↔ ¬ ai.Stale errno := by
  unfold Fresh tried
  have hnot : ¬ goesOn ai = true := by
    rw [hgoes]
    exact Bool.false_ne_true
  rw [ending_stop hgoes, List.takeWhile_cons_of_neg hnot]
  exact and_iff_left trivial

/-- A socket that is lost in the first place makes the list one that is not fresh. -/
theorem not_fresh_of_stale (h : ai.Stale errno) : ¬ Fresh goesOn errno (ai :: ais) := by
  cases hgoes : goesOn ai with
  | false =>
    rw [fresh_stop hgoes]
    exact not_not_intro h
  | true =>
    rw [fresh_pass hgoes]
    exact fun hfresh => hfresh.1 h

theorem errnoAfter_cons : errnoAfter errno (ai :: ais) = errnoAfter ai.leaves ais := by
  unfold errnoAfter
  cases ais with
  | nil => rfl
  | cons b bs =>
    rw [List.getLast?_cons_cons]
    obtain ⟨c, hc⟩ := Option.ne_none_iff_exists'.mp
      (List.getLast?_eq_none_iff.not.mpr (List.cons_ne_nil b bs))
    rw [hc]
    rfl

/-- The loop, from what it does with one address. -/
theorem loop_result {f : LoopyNet → Addrinfo → Option Exit × LoopyNet}
    (hkeeps : ∀ l ai, Keeps l (f l ai).2)
    (hf : ∀ l' ai, Keeps l l' → l'.Idle → Attempted goesOn succeeds Stopped Done l' ai (f l' ai))
    (hidle : l.Idle) :
    LoopResult goesOn succeeds Stopped Done l.errno l.sock.kind ais (tryEach f l ais) := by
  induction ais generalizing l with
  | nil => exact .exhausted l trivial rfl hidle rfl rfl
  | cons ai ais ih =>
    have hattempt := hf l ai (.refl l) hidle
    have hkeep := hkeeps l ai
    generalize hr : f l ai = r at hattempt hkeep
    cases hattempt with
    | passes l' hgoes hfresh hidle' herrno hsock =>
      have hrest := ih (fun l'' ai h => hf l'' ai (hkeep.trans h)) hidle'
      rw [herrno, hsock] at hrest
      rw [tryEach_next hr]
      generalize tryEach f l' ais = r' at hrest
      cases hrest with
      | exhausted l'' hfresh' hending hidle'' herrno' hsock' =>
        refine .exhausted l'' ((fresh_pass hgoes).mpr ⟨hfresh, hfresh'⟩)
          ((ending_pass hgoes).trans hending) hidle'' ?_ hsock'
        rw [herrno', errnoAfter_cons]
      | leaked _ n hstale hleaked =>
        exact .leaked _ n (fun hall => hstale ((fresh_pass hgoes).mp hall).2) hleaked
      | stopped l'' b hfresh' hending hfails h =>
        exact .stopped l'' b ((fresh_pass hgoes).mpr ⟨hfresh, hfresh'⟩)
          ((ending_pass hgoes).trans hending) hfails h
      | done l'' b hfresh' hending hsucceeds h =>
        exact .done l'' b ((fresh_pass hgoes).mpr ⟨hfresh, hfresh'⟩)
          ((ending_pass hgoes).trans hending) hsucceeds h
    | leaks l' n hstale hleaked =>
      -- the other addresses do not find the socket again
      rw [tryEach_next hr]
      exact .leaked _ n (not_fresh_of_stale hstale)
        (tryEach_invariant (fun l ai h => (hkeeps l ai).leaks n h) hleaked)
    | stops l' hgoes hfresh hfails h =>
      rw [tryEach_done hr]
      exact .stopped l' ai ((fresh_stop hgoes).mpr hfresh) (ending_stop hgoes) hfails h
    | succeeds l' hgoes hfresh hsucceeds h =>
      rw [tryEach_done hr]
      exact .done l' ai ((fresh_stop hgoes).mpr hfresh) (ending_stop hgoes) hsucceeds h

end loop

end Loopy.Net
