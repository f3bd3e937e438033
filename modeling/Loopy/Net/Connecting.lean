import Loopy.Net.Loops

/-!
# Connecting to one address

The body of the loop of `loopyNetTcpGenericConnect` goes on to the next address after `socket` or
`connect` has failed (`refuses`); every other failure ends the loop.
-/

namespace Loopy.Net

open Loopy.Lib

namespace Addrinfo

/-- The error of the binds to `n` bind addresses, if all of them fail. -/
def bindErrno (ai : Addrinfo) (n : ℕ) : Option Errno :=
  if n = 0 ∨ ∃ b < n, ai.bind b = .ok then none else (ai.bind (n - 1)).error?

/-- The error of the calls between `socket` and `connect`. -/
def prepareErrno (ai : Addrinfo) (flags : ConnectFlags) (bservinfo : ℕ) : Option Errno :=
  ai.reuseaddr.error? <|> (if flags.NONBLOCK then ai.getfl.error? <|> ai.setfl.error? else none) <|>
    ai.bindErrno bservinfo

/-- `connect` succeeds, or the connection is in progress and may be. -/
def accepted (ai : Addrinfo) (flags : ConnectFlags) : Bool :=
  ai.connect = .ok || (ai.connect = .error .EINPROGRESS && flags.NONBLOCK)

/-- All calls for the address succeed. -/
def connects (ai : Addrinfo) (flags : ConnectFlags) (bservinfo : ℕ) : Bool :=
  ai.socket = .ok && (ai.prepareErrno flags bservinfo).isNone && ai.accepted flags

/-- `socket` fails, or `connect` does. -/
def refuses (ai : Addrinfo) (flags : ConnectFlags) (bservinfo : ℕ) : Bool :=
  ai.socket ≠ .ok || ((ai.prepareErrno flags bservinfo).isNone && !ai.accepted flags)

end Addrinfo

namespace LoopyNet

variable {l : LoopyNet} {ai : Addrinfo} {n : ℕ} {flags : ConnectFlags}

theorem sysCall_eq (answer : Answer) : l.sysCall answer =
    match answer.error? with
    | none => (true, l)
    | some errno => (false, { l with errno := errno }) := by
  cases answer <;> rfl

/-- The loop over bind addresses that all fail. -/
theorem bindAny_error {bind : ℕ → Answer} {bs : List ℕ} (hbs : ∀ b ∈ bs, bind b ≠ .ok) :
    l.bindAny bind bs = (false, { l with
      errno := ((bs.getLast?.bind fun b => (bind b).error?).getD l.errno) }) := by
  induction bs generalizing l with
  | nil => rfl
  | cons b bs ih =>
    rw [bindAny]
    cases hb : bind b with
    | ok => exact absurd hb (hbs b List.mem_cons_self)
    | error errno =>
      rw [sysCall]
      dsimp only
      rw [ih fun c hc => hbs c (List.mem_cons_of_mem b hc)]
      cases bs with
      | nil => simp [Answer.error?, hb]
      | cons c cs =>
        rw [List.getLast?_cons_cons]
        obtain ⟨d, hd⟩ := Option.ne_none_iff_exists'.mp
          (List.getLast?_eq_none_iff.not.mpr (List.cons_ne_nil c cs))
        cases hbind : bind d with
        | ok => exact absurd hbind (hbs d (List.mem_cons_of_mem b (List.mem_of_getLast? hd)))
        | error errno' => simp [Answer.error?, hd, hbind]

/-- The loop over bind addresses of which one is good. -/
theorem bindAny_ok {bind : ℕ → Answer} {bs : List ℕ} (hbs : ∃ b ∈ bs, bind b = .ok) :
    ∃ errno, l.bindAny bind bs = (true, { l with errno := errno }) := by
  induction bs generalizing l with
  | nil =>
    obtain ⟨b, hb, -⟩ := hbs
    cases hb
  | cons b bs ih =>
    rw [bindAny]
    cases hb : bind b with
    | ok => exact ⟨l.errno, rfl⟩
    | error errno =>
      obtain ⟨c, hc, hok⟩ := hbs
      have hmem : c ∈ bs := by
        refine (List.mem_cons.mp hc).resolve_left ?_
        rintro rfl
        rw [hb] at hok
        cases hok
      obtain ⟨errno', h⟩ := ih (l := { l with errno := errno }) ⟨c, hmem, hok⟩
      exact ⟨errno', h⟩

theorem bindTo_eq (l : LoopyNet) (ai : Addrinfo) (n : ℕ) : ∃ errno, l.bindTo ai n =
    ((ai.bindErrno n).isNone, { l with errno := (ai.bindErrno n).getD errno }) := by
  unfold bindTo Addrinfo.bindErrno
  by_cases hn : n = 0
  · rw [if_pos hn, if_pos (.inl hn)]
    exact ⟨l.errno, rfl⟩
  · rw [if_neg hn]
    by_cases hgood : ∃ b < n, ai.bind b = .ok
    · rw [if_pos (.inr hgood)]
      obtain ⟨b, hb, hok⟩ := hgood
      exact bindAny_ok ⟨b, List.mem_range.mpr hb, hok⟩
    · rw [if_neg (not_or.mpr ⟨hn, hgood⟩)]
      have hall : ∀ b ∈ List.range n, ai.bind b ≠ .ok :=
        fun b hb hok => hgood ⟨b, List.mem_range.mp hb, hok⟩
      have hlast : (List.range n).getLast? = some (n - 1) := by
        rw [List.getLast?_range, if_neg hn]
      rw [bindAny_error hall, hlast, Option.bind_some]
      cases hbind : ai.bind (n - 1) with
      | ok => exact absurd hbind (hall _ (List.mem_range.mpr (by omega)))
      | error errno => exact ⟨l.errno, rfl⟩

/-- `connectTo` from `connect` on. -/
def connectEnd (flags : ConnectFlags) (l : LoopyNet) (ai : Addrinfo) : Option Exit × LoopyNet :=
  match l.sysCall ai.connect with
  | (true, l) => (some .done, l.setState .connected)
  | (false, l) =>
    if l.errno = .EINPROGRESS ∧ flags.NONBLOCK = true then (some .done, l.setState .inProgress)
    else (none, l.loopyNetSocketClose ai.close)

/-- `connectTo` for a socket that has been opened. -/
theorem connectTo_eq (hsocket : ai.socket = .ok) (hfresh : ¬ ai.Stale l.errno) :
    ∃ errno, connectTo flags n l ai =
      match ai.prepareErrno flags n with
      | some errno => (some .error, { l.opened ai with errno := errno })
      | none => connectEnd flags { l.opened ai with errno := errno } ai := by
  obtain ⟨errno, hbind⟩ := bindTo_eq (l.opened ai) ai n
  refine ⟨errno, ?_⟩
  unfold connectTo
  rw [socketNew_ok hsocket hfresh]
  unfold loopyNetSetReuseAddr loopyNetNonBlockEnable Addrinfo.prepareErrno
  dsimp only
  rw [sysCall_eq ai.reuseaddr]
  cases ai.reuseaddr.error? with
  | some e => rfl
  | none =>
    dsimp only
    obtain ⟨nonblock, bestEffort⟩ := flags
    cases nonblock with
    | false =>
      rw [if_neg Bool.false_ne_true, if_neg Bool.false_ne_true]
      dsimp only
      rw [hbind]
      cases ai.bindErrno n <;> rfl
    | true =>
      rw [if_pos rfl, if_pos rfl, sysCall_eq ai.getfl]
      cases ai.getfl.error? with
      | some e => rfl
      | none =>
        dsimp only
        rw [sysCall_eq ai.setfl]
        cases ai.setfl.error? with
        | some e => rfl
        | none =>
          dsimp only
          rw [hbind]
          cases ai.bindErrno n <;> rfl

/-- The socket is connected, or the connection is in progress. -/
def ConnectedTo (flags : ConnectFlags) (ai : Addrinfo) (l : LoopyNet) : Prop :=
  l.Only ai.ai_addr .connected ∨ flags.NONBLOCK = true ∧ l.Only ai.ai_addr .inProgress

/-- The socket is open, and not connected. -/
def NotPrepared (flags : ConnectFlags) (n : ℕ) (ai : Addrinfo) (l : LoopyNet) : Prop :=
  l.Only ai.ai_addr .new ∧ ai.prepareErrno flags n = some l.errno

theorem Idle.connectTo (h : l.Idle) : Attempted (fun ai => ai.refuses flags n)
    (fun ai => ai.connects flags n) (NotPrepared flags n) (ConnectedTo flags) l ai
    (connectTo flags n l ai) := by
  cases hsocket : ai.socket with
  | error e =>
    have hfresh : ¬ ai.Stale l.errno := by
      rintro ⟨hok, -⟩
      rw [hsocket] at hok
      cases hok
    have hresult : LoopyNet.connectTo flags n l ai = (none, { l with errno := e }) := by
      unfold LoopyNet.connectTo
      rw [socketNew_error hsocket]
    rw [hresult]
    refine .passes _ ?_ hfresh ⟨h.closed, h.sock⟩ ?_ ?_
    · simp [Addrinfo.refuses, hsocket]
    · simp [Addrinfo.leaves, hsocket]
    · simp [Sock.after, hsocket]
  | ok =>
    by_cases hstale : ai.Stale l.errno
    · have hresult : LoopyNet.connectTo flags n l ai =
          (none, { l.opened ai with sock := l.sock }) := by
        unfold LoopyNet.connectTo
        rw [socketNew_stale hstale]
      rw [hresult]
      exact .leaks _ l.count hstale h.leaks_of_stale
    · obtain ⟨errno, hresult⟩ := connectTo_eq (l := l) (n := n) hsocket hstale
      rw [hresult]
      cases hprepare : ai.prepareErrno flags n with
      | some e =>
        refine .stops _ ?_ hstale ?_ ⟨h.only_opened ai e, hprepare⟩
        · simp [Addrinfo.refuses, hsocket, hprepare]
        · simp [Addrinfo.connects, hsocket, hprepare]
      | none =>
        have hopened := h.only_opened ai errno
        unfold connectEnd
        dsimp only
        cases hconnect : ai.connect with
        | ok =>
          refine .succeeds _ ?_ hstale ?_ (.inl (hopened.setState .connected))
          · simp [Addrinfo.refuses, Addrinfo.accepted, hsocket, hconnect]
          · simp [Addrinfo.connects, Addrinfo.accepted, hsocket, hprepare, hconnect]
        | error e =>
          dsimp only [sysCall]
          split_ifs with hprogress
          · obtain ⟨rfl, hflag⟩ := hprogress
            refine .succeeds _ ?_ hstale ?_ (.inr ⟨hflag, ?_⟩)
            · simp [Addrinfo.refuses, Addrinfo.accepted, hsocket, hconnect, hflag]
            · simp [Addrinfo.connects, Addrinfo.accepted, hsocket, hprepare, hconnect, hflag]
            · exact (h.only_opened ai .EINPROGRESS).setState .inProgress
          · have hclose := (h.only_opened ai e).close ai.close
            have hrefused : ai.accepted flags = false := by
              refine Bool.eq_false_iff.mpr fun haccepted => hprogress ?_
              simpa [Addrinfo.accepted, hconnect] using haccepted
            refine .passes _ ?_ hstale hclose.1 ?_ ?_
            · simp [Addrinfo.refuses, hsocket, hprepare, hrefused]
            · rw [hclose.2.1]
              cases hc : ai.close <;> simp [Addrinfo.leaves, Answer.error?, hsocket, hc, hconnect]
            · rw [hclose.2.2]
              cases hc : ai.close <;> simp [Sock.after, hsocket, hc]

end LoopyNet

end Loopy.Net
