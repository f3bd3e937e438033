import Mathlib.Order.Nat
import Loopy.TTY.Modes

/-!
# Several handles

Any number of handles on any number of terminals, under calls in any order; nothing else changes
the settings of a terminal, and `tcgetattr` and `tcsetattr` succeed. A handle saves the settings
that it finds, which are not the original ones if another handle has set a mode before. When it is
freed it writes them back, and `loopyTTYResetAll` writes those of the oldest handle last.
-/

namespace Loopy.TTY

open Loopy.Lib
open Function (update update_of_ne update_self)

variable {T : Type}

/-! ## Sessions -/

/-- All terminals, with the settings that they had at the start, and whether the last call was
`loopyTTYResetAll`. -/
structure Session (T : Type) where
  world : World T
  original : T → Termios
  afterResetAll : Bool

def Session.start (settings : T → Termios) : Session T where
  world := { settings, ttyList := [], nextId := 0 }
  original := settings
  afterResetAll := false

inductive Call (T : Type)
  | new (outcome : NewOutcome) (terminal : T)
  | setMode (id : ℕ) (mode : LoopyTTYMode)
  | resetMode (id : ℕ)
  | resetAll
  | free (id : ℕ)
deriving DecidableEq

/-- The handle of a pointer. -/
def World.handle (w : World T) (id : ℕ) : Option (LoopyTTY T) :=
  w.ttyList.find? fun tty => tty.id = id

/-- `loopyTTYNew`. -/
def World.new (w : World T) (outcome : NewOutcome) (terminal : T) : World T :=
  match loopyTTYNew outcome w.nextId terminal (w.settings terminal) with
  | none => w
  | some tty => { w with ttyList := ttyAddToList tty w.ttyList, nextId := w.nextId + 1 }

/-- What a call on a handle leaves. -/
def World.set [DecidableEq T] (w : World T) (tty : LoopyTTY T) (r : Bool × LoopyTTY T × Termios) :
    World T :=
  { w.tcsetattr tty.terminal r.2.2 with
    ttyList := modifyKey LoopyTTY.id tty.id (fun _ => r.2.1) w.ttyList }

/-- A call; only a pointer to a handle that is live can be passed. -/
def sessionStep [DecidableEq T] (s : Session T) (call : Call T) : Option (Session T) :=
  match call with
  | .new outcome terminal =>
    some { s with world := s.world.new outcome terminal, afterResetAll := false }
  | .setMode id mode =>
    (s.world.handle id).map fun tty =>
      { s with
        world := s.world.set tty
          (loopyTTYSetMode tty mode true true (s.world.settings tty.terminal))
        afterResetAll := false }
  | .resetMode id =>
    (s.world.handle id).map fun tty =>
      { s with
        world := s.world.set tty (loopyTTYResetMode tty true (s.world.settings tty.terminal))
        afterResetAll := false }
  | .resetAll => some { s with world := loopyTTYResetAll s.world, afterResetAll := true }
  | .free id =>
    (s.world.handle id).map fun tty =>
      { s with world := loopyTTYFree tty s.world, afterResetAll := false }

/-- The terminals with a live handle. -/
def World.live (w : World T) : List T := w.ttyList.map LoopyTTY.terminal

/-- A terminal without handles has its original settings, and after `loopyTTYResetAll` so have
those with handles. -/
structure Restored (s : Session T) : Prop where
  freed : ∀ terminal, terminal ∉ s.world.live →
    s.world.settings terminal = s.original terminal
  reset : s.afterResetAll = true → ∀ terminal ∈ s.world.live,
    s.world.settings terminal = s.original terminal

/-- Pointers are different, the newest first, and every handle has saved settings. -/
structure SessionOK (s : Session T) : Prop where
  newest : (s.world.ttyList.map LoopyTTY.id).Pairwise (· > ·)
  fresh : ∀ tty ∈ s.world.ttyList, tty.id < s.world.nextId
  saved : ∀ tty ∈ s.world.ttyList, tty.origSaved = true

/-- The oldest live handle of its terminal. -/
def World.Oldest (w : World T) (tty : LoopyTTY T) : Prop :=
  tty ∈ w.ttyList ∧ ∀ other ∈ w.ttyList, other.terminal = tty.terminal → tty.id ≤ other.id

/-- The only live handle of its terminal. -/
def World.Last (w : World T) (tty : LoopyTTY T) : Prop :=
  tty ∈ w.ttyList ∧ ∀ other ∈ w.ttyList, other.terminal = tty.terminal → other.id = tty.id

/-- A handle has saved the original settings if it is freed as the last one of its terminal, or if
it is the oldest one of its terminal at `loopyTTYResetAll`. -/
def CallOK (s : Session T) (call : Call T) : Prop :=
  match call with
  | .free id => ∀ tty, tty.id = id → s.world.Last tty → tty.origTermios = s.original tty.terminal
  | .resetAll => ∀ tty, s.world.Oldest tty → tty.origTermios = s.original tty.terminal
  | .new _ _ | .setMode _ _ | .resetMode _ => True

variable {s s' : Session T} {w : World T} {tty : LoopyTTY T} {l : List (LoopyTTY T)}

/-! ## The list -/

theorem World.handle_spec {id : ℕ} (h : w.handle id = some tty) :
    tty ∈ w.ttyList ∧ tty.id = id :=
  ⟨List.mem_of_find?_eq_some h, by simpa using List.find?_some h⟩

/-- The oldest handle of a terminal that has one. -/
theorem exists_oldest (hnewest : (l.map LoopyTTY.id).Pairwise (· > ·)) (htty : tty ∈ l) :
    ∃ old ∈ l, old.terminal = tty.terminal ∧
      ∀ other ∈ l, other.terminal = tty.terminal → old.id ≤ other.id := by
  induction l generalizing tty with
  | nil => cases htty
  | cons x xs ih =>
    rw [List.map_cons, List.pairwise_cons] at hnewest
    obtain ⟨hx, hxs⟩ := hnewest
    -- an older one than `x`, or `x` itself
    by_cases hlater : ∃ y ∈ xs, y.terminal = tty.terminal
    · obtain ⟨y, hy, hyt⟩ := hlater
      obtain ⟨old, hold, hterminal, hle⟩ := ih hxs hy
      refine ⟨old, List.mem_cons_of_mem x hold, hterminal.trans hyt, fun other hother heq => ?_⟩
      rcases List.mem_cons.mp hother with rfl | hother
      · exact (hx old.id (List.mem_map_of_mem hold)).le
      · exact hle other hother (heq.trans hyt.symm)
    · obtain rfl : tty = x :=
        (List.mem_cons.mp htty).resolve_right fun h => hlater ⟨tty, h, rfl⟩
      refine ⟨tty, htty, rfl, fun other hother heq => ?_⟩
      rcases List.mem_cons.mp hother with rfl | hother
      · exact le_rfl
      · exact absurd ⟨other, hother, heq⟩ hlater

/-! ## The calls -/

/-- A call on a handle leaves what the handle has saved. -/
structure Keeps (tty tty' : LoopyTTY T) : Prop where
  id : tty'.id = tty.id
  terminal : tty'.terminal = tty.terminal
  orig : tty'.origTermios = tty.origTermios
  saved : tty'.origSaved = tty.origSaved

theorem loopyTTYSetMode_keeps (tty : LoopyTTY T) (mode : LoopyTTYMode) (get set : Bool)
    (t : Termios) : Keeps tty (loopyTTYSetMode tty mode get set t).2.1 := by
  unfold loopyTTYSetMode
  dsimp only
  split_ifs <;> exact ⟨rfl, rfl, rfl, rfl⟩

theorem loopyTTYResetMode_keeps (tty : LoopyTTY T) (set : Bool) (t : Termios) :
    Keeps tty (loopyTTYResetMode tty set t).2.1 := by
  unfold loopyTTYResetMode
  split_ifs <;> exact ⟨rfl, rfl, rfl, rfl⟩

theorem SessionOK.nodup (h : SessionOK s) : (s.world.ttyList.map LoopyTTY.id).Nodup :=
  h.newest.imp ne_of_gt

theorem SessionOK.eq_of_id (h : SessionOK s) {tty' : LoopyTTY T} (htty : tty ∈ s.world.ttyList)
    (htty' : tty' ∈ s.world.ttyList) (hid : tty.id = tty'.id) : tty = tty' :=
  List.inj_on_of_nodup_map h.nodup htty htty' hid

theorem mem_of_map_eq {l l' : List (LoopyTTY T)} {β : Type} {g : LoopyTTY T → β} {P : β → Prop}
    (heq : l'.map g = l.map g) (h : ∀ tty ∈ l, P (g tty)) : ∀ tty ∈ l', P (g tty) := by
  rw [← List.forall_mem_map (f := g) (P := P)] at h ⊢
  rw [heq]
  exact h

theorem SessionOK.start (settings : T → Termios) : SessionOK (Session.start settings) := by
  refine ⟨.nil, ?_, ?_⟩ <;> exact fun tty h => nomatch h

/-- A list with the same pointers and saved flags. -/
theorem SessionOK.of_map_eq (h : SessionOK s) (hnext : s'.world.nextId = s.world.nextId)
    (hid : s'.world.ttyList.map LoopyTTY.id = s.world.ttyList.map LoopyTTY.id)
    (hsaved : s'.world.ttyList.map LoopyTTY.origSaved =
      s.world.ttyList.map LoopyTTY.origSaved) : SessionOK s' where
  newest := by
    rw [hid]
    exact h.newest
  fresh := by
    rw [hnext]
    exact mem_of_map_eq (P := (· < s.world.nextId)) hid h.fresh
  saved := mem_of_map_eq (P := (· = true)) hsaved h.saved

/-- The terminal of a handle that is freed is left without one exactly if it was the last. -/
theorem SessionOK.last_iff (h : SessionOK s) (htty : tty ∈ s.world.ttyList) :
    tty.terminal ∉ (removeKey LoopyTTY.id tty.id s.world.ttyList).map LoopyTTY.terminal ↔
      s.world.Last tty := by
  constructor
  · intro hnot
    refine ⟨htty, fun other hother heq => ?_⟩
    by_contra hne
    exact hnot (List.mem_map.mpr ⟨other, (mem_removeKey_iff h.nodup).mpr ⟨hother, hne⟩, heq⟩)
  · rintro ⟨-, hlast⟩ hmem
    obtain ⟨other, hother, heq⟩ := List.mem_map.mp hmem
    obtain ⟨hother, hne⟩ := (mem_removeKey_iff h.nodup).mp hother
    exact hne (hlast other hother heq)

section calls

variable [DecidableEq T]

theorem resetSettings_cons (settings : T → Termios) (hsaved : tty.origSaved = true)
    (l : List (LoopyTTY T)) :
    resetSettings settings (tty :: l) =
      resetSettings (update settings tty.terminal tty.origTermios) l := by
  rw [resetSettings, List.foldl_cons, if_pos hsaved, ← resetSettings]

/-- The walk leaves the terminals that it does not meet. -/
theorem resetSettings_of_not_mem {terminal : T} (h : terminal ∉ l.map LoopyTTY.terminal)
    (hsaved : ∀ tty ∈ l, tty.origSaved = true) (settings : T → Termios) :
    resetSettings settings l terminal = settings terminal := by
  induction l generalizing settings with
  | nil => rfl
  | cons x xs ih =>
    rw [List.map_cons, List.mem_cons, not_or] at h
    rw [resetSettings_cons settings (hsaved x List.mem_cons_self),
      ih h.2 fun tty htty => hsaved tty (List.mem_cons_of_mem x htty),
      update_of_ne h.1]

/-- The oldest handle of a terminal comes last. -/
theorem resetSettings_oldest (hnewest : (l.map LoopyTTY.id).Pairwise (· > ·))
    (hsaved : ∀ tty ∈ l, tty.origSaved = true) (htty : tty ∈ l)
    (hold : ∀ other ∈ l, other.terminal = tty.terminal → tty.id ≤ other.id)
    (settings : T → Termios) :
    resetSettings settings l tty.terminal = tty.origTermios := by
  induction l generalizing settings with
  | nil => cases htty
  | cons x xs ih =>
    rw [List.map_cons, List.pairwise_cons] at hnewest
    obtain ⟨hx, hxs⟩ := hnewest
    have hsaved' : ∀ tty ∈ xs, tty.origSaved = true :=
      fun tty h => hsaved tty (List.mem_cons_of_mem x h)
    rw [resetSettings_cons settings (hsaved x List.mem_cons_self)]
    rcases List.mem_cons.mp htty with rfl | hmem
    · rw [resetSettings_of_not_mem _ hsaved', update_self]
      rintro hagain
      obtain ⟨other, hother, heq⟩ := List.mem_map.mp hagain
      have hle := hold other (List.mem_cons_of_mem tty hother) heq
      have hlt := hx other.id (List.mem_map_of_mem hother)
      omega
    · exact ih hxs hsaved' hmem (fun other h => hold other (List.mem_cons_of_mem x h)) _

variable {r : Bool × LoopyTTY T × Termios} {call : Call T}

/-- What a call on a handle leaves of it, all along the list. -/
theorem SessionOK.map_set (h : SessionOK s) (htty : tty ∈ s.world.ttyList) {β : Type}
    {g : LoopyTTY T → β} (hg : g r.2.1 = g tty) :
    (s.world.set tty r).ttyList.map g = s.world.ttyList.map g := by
  refine map_modifyKey fun x hx hid => ?_
  rw [hg, h.eq_of_id hx htty hid]

/-- What a step does to the settings and to the list of handles. -/
inductive Effect (s s' : Session T) : Call T → Prop
  | new (outcome : NewOutcome) (terminal : T)
      (hsettings : s'.world.settings = s.world.settings)
      (hlive : ∀ terminal ∈ s.world.live, terminal ∈ s'.world.live)
      (hreset : s'.afterResetAll = false) : Effect s s' (.new outcome terminal)
  | onHandle (call : Call T) (hcall : CallOK s call) (hlive : s'.world.live = s.world.live)
      (hsettings : ∀ terminal ∉ s.world.live,
        s'.world.settings terminal = s.world.settings terminal)
      (hreset : s'.afterResetAll = false) : Effect s s' call
  | resetAll (hlive : s'.world.live = s.world.live)
      (hsettings : s'.world.settings = resetSettings s.world.settings s.world.ttyList)
      (hreset : s'.afterResetAll = true) : Effect s s' .resetAll
  | free (tty : LoopyTTY T) (htty : tty ∈ s.world.ttyList)
      (hlist : s'.world.ttyList = removeKey LoopyTTY.id tty.id s.world.ttyList)
      (hsettings : s'.world.settings =
        update s.world.settings tty.terminal tty.origTermios)
      (hreset : s'.afterResetAll = false) : Effect s s' (.free tty.id)

/-- A call that sets or resets the mode of a handle. -/
theorem SessionOK.set (h : SessionOK s) (htty : tty ∈ s.world.ttyList) (hkeeps : Keeps tty r.2.1)
    (hcall : CallOK s call) :
    SessionOK { s with world := s.world.set tty r, afterResetAll := false } ∧
      Effect s { s with world := s.world.set tty r, afterResetAll := false } call := by
  refine ⟨h.of_map_eq rfl (h.map_set htty hkeeps.id) (h.map_set htty hkeeps.saved),
    .onHandle call hcall (h.map_set htty hkeeps.terminal) (fun terminal hterminal => ?_) rfl⟩
  refine update_of_ne ?_ _ _
  rintro rfl
  exact hterminal (List.mem_map_of_mem htty)

theorem SessionOK.new (h : SessionOK s) (outcome : NewOutcome) (terminal : T) :
    SessionOK { s with world := s.world.new outcome terminal, afterResetAll := false } ∧
      Effect s { s with world := s.world.new outcome terminal, afterResetAll := false }
        (.new outcome terminal) := by
  cases hnew : loopyTTYNew outcome s.world.nextId terminal (s.world.settings terminal) with
  | none =>
    have hworld : s.world.new outcome terminal = s.world := by rw [World.new, hnew]
    rw [hworld]
    exact ⟨⟨h.newest, h.fresh, h.saved⟩, .new outcome terminal rfl (fun _ hlive => hlive) rfl⟩
  | some tty =>
    have hworld : s.world.new outcome terminal =
        { s.world with ttyList := tty :: s.world.ttyList, nextId := s.world.nextId + 1 } := by
      rw [World.new, hnew]
      rfl
    obtain rfl := loopyTTYNew_opened hnew
    rw [hworld]
    refine ⟨⟨?_, ?_, ?_⟩, .new outcome terminal rfl (fun _ => List.mem_cons_of_mem _) rfl⟩
    · refine List.pairwise_cons.mpr ⟨fun id hid => ?_, h.newest⟩
      obtain ⟨other, hother, rfl⟩ := List.mem_map.mp hid
      exact h.fresh other hother
    · intro other hother
      rcases List.mem_cons.mp hother with rfl | hother
      · exact Nat.lt_succ_self _
      · exact Nat.lt_succ_of_lt (h.fresh other hother)
    · intro other hother
      rcases List.mem_cons.mp hother with rfl | hother
      · rfl
      · exact h.saved other hother

theorem SessionOK.resetAll (h : SessionOK s) :
    SessionOK { s with world := loopyTTYResetAll s.world, afterResetAll := true } ∧
      Effect s { s with world := loopyTTYResetAll s.world, afterResetAll := true } .resetAll := by
  have hmap {β : Type} {g : LoopyTTY T → β}
      (hg : ∀ tty : LoopyTTY T, g { tty with mode := .normal } = g tty) :
      (loopyTTYResetAll s.world).ttyList.map g = s.world.ttyList.map g := by
    unfold loopyTTYResetAll
    rw [List.map_map]
    refine List.map_congr_left fun tty htty => ?_
    rw [Function.comp_apply, if_pos (h.saved tty htty)]
    exact hg tty
  exact ⟨h.of_map_eq rfl (hmap fun _ => rfl) (hmap fun _ => rfl),
    .resetAll (hmap fun _ => rfl) rfl rfl⟩

theorem SessionOK.free (h : SessionOK s) (htty : tty ∈ s.world.ttyList) :
    SessionOK { s with world := loopyTTYFree tty s.world, afterResetAll := false } ∧
      Effect s { s with world := loopyTTYFree tty s.world, afterResetAll := false }
        (.free tty.id) := by
  have hworld : loopyTTYFree tty s.world =
      { s.world.tcsetattr tty.terminal tty.origTermios with
        ttyList := removeKey LoopyTTY.id tty.id s.world.ttyList } := by
    rw [loopyTTYFree, if_pos (h.saved tty htty)]
    rfl
  have hsub := removeKey_sublist LoopyTTY.id tty.id s.world.ttyList
  rw [hworld]
  refine ⟨⟨h.newest.sublist (hsub.map _), fun other hother => ?_, fun other hother => ?_⟩,
    .free tty htty rfl rfl rfl⟩
  · exact h.fresh other (hsub.subset hother)
  · exact h.saved other (hsub.subset hother)

/-- Every step keeps the invariant and has one of the effects. -/
theorem SessionOK.step (h : SessionOK s) (hstep : sessionStep s call = some s') :
    s'.original = s.original ∧ SessionOK s' ∧ Effect s s' call := by
  cases call with
  | new outcome terminal =>
    obtain rfl := Option.some.inj hstep
    exact ⟨rfl, h.new outcome terminal⟩
  | setMode id mode =>
    obtain ⟨tty, htty, rfl⟩ := Option.map_eq_some_iff.mp hstep
    exact ⟨rfl, h.set (World.handle_spec htty).1 (loopyTTYSetMode_keeps tty mode true true _)
      trivial⟩
  | resetMode id =>
    obtain ⟨tty, htty, rfl⟩ := Option.map_eq_some_iff.mp hstep
    exact ⟨rfl, h.set (World.handle_spec htty).1 (loopyTTYResetMode_keeps tty true _) trivial⟩
  | resetAll =>
    obtain rfl := Option.some.inj hstep
    exact ⟨rfl, h.resetAll⟩
  | free id =>
    obtain ⟨tty, htty, rfl⟩ := Option.map_eq_some_iff.mp hstep
    obtain ⟨hmem, rfl⟩ := World.handle_spec htty
    exact ⟨rfl, h.free hmem⟩

/-! ## The law -/

/-- A step keeps the law exactly if the handles that write last have saved the original
settings. -/
theorem Restored.step_iff (h : SessionOK s) (hlaw : Restored s)
    (hstep : sessionStep s call = some s') : Restored s' ↔ CallOK s call := by
  obtain ⟨horiginal, hs', heffect⟩ := h.step hstep
  cases heffect with
  | new outcome terminal hsettings hlive hreset =>
    refine iff_of_true ⟨fun terminal hterminal => ?_, fun hafter => ?_⟩ trivial
    · rw [hsettings, horiginal]
      exact hlaw.freed terminal fun hmem => hterminal (hlive terminal hmem)
    · rw [hreset] at hafter
      cases hafter
  | onHandle _ hcall hlive hsettings hreset =>
    refine iff_of_true ⟨fun terminal hterminal => ?_, fun hafter => ?_⟩ hcall
    · rw [hlive] at hterminal
      rw [hsettings terminal hterminal, horiginal]
      exact hlaw.freed terminal hterminal
    · rw [hreset] at hafter
      cases hafter
  | resetAll hlive hsettings hreset =>
    -- of the handles on a terminal the oldest one writes last
    constructor
    · rintro hlaw' tty ⟨htty, hold⟩
      have hrestored := hlaw'.reset hreset tty.terminal
        (by rw [hlive]; exact List.mem_map_of_mem htty)
      rwa [hsettings, resetSettings_oldest h.newest h.saved htty hold, horiginal] at hrestored
    · intro hcall
      refine ⟨fun terminal hterminal => ?_, fun _ terminal hterminal => ?_⟩
      · rw [hlive] at hterminal
        rw [hsettings, horiginal, resetSettings_of_not_mem hterminal h.saved]
        exact hlaw.freed terminal hterminal
      · rw [hlive] at hterminal
        obtain ⟨tty, htty, rfl⟩ := List.mem_map.mp hterminal
        obtain ⟨old, hold, heq, hle⟩ := exists_oldest h.newest htty
        have holdest : s.world.Oldest old := ⟨hold, by rw [heq]; exact hle⟩
        rw [hsettings, horiginal, ← heq,
          resetSettings_oldest h.newest h.saved hold holdest.2]
        exact hcall old holdest
  | free tty htty hlist hsettings hreset =>
    have hlive : s'.world.live =
        (removeKey LoopyTTY.id tty.id s.world.ttyList).map LoopyTTY.terminal := by
      rw [World.live, hlist]
    -- only the terminal of the last handle on it is freed
    constructor
    · intro hlaw' tty' hid hlast
      obtain rfl : tty' = tty := h.eq_of_id hlast.1 htty hid
      have hfreed := hlaw'.freed tty'.terminal (by rw [hlive]; exact (h.last_iff htty).mpr hlast)
      rwa [hsettings, update_self, horiginal] at hfreed
    · intro hcall
      refine ⟨fun terminal hterminal => ?_, fun hafter => ?_⟩
      · rw [hsettings, horiginal]
        rw [hlive] at hterminal
        by_cases heq : terminal = tty.terminal
        · rw [heq] at hterminal ⊢
          rw [update_self]
          exact hcall tty rfl ((h.last_iff htty).mp hterminal)
        · rw [update_of_ne heq]
          refine hlaw.freed terminal fun hmem => hterminal ?_
          obtain ⟨other, hother, rfl⟩ := List.mem_map.mp hmem
          refine List.mem_map_of_mem ((mem_removeKey_iff h.nodup).mpr ⟨hother, fun hid => ?_⟩)
          exact heq (by rw [h.eq_of_id hother htty hid])
      · rw [hreset] at hafter
        cases hafter

/-- The terminals are restored all along a run exactly if the handles that write last, at every
`loopyTTYFree` and `loopyTTYResetAll` of it, have saved the original settings. -/
theorem restored_iff {settings : T → Termios} {calls : List (Call T)}
    (h : Run sessionStep (fun _ _ => True) (Session.start settings) calls s) :
    (∀ calls' s', calls' <+: calls →
      Run sessionStep (fun _ _ => True) (Session.start settings) calls' s' → Restored s') ↔
      Run sessionStep CallOK (Session.start settings) calls s :=
  h.always_iff (P := SessionOK) (fun _ _ _ hok hstep => (hok.step hstep).2.1)
    (fun _ _ _ hok hlaw hstep => hlaw.step_iff hok hstep) (SessionOK.start settings)
    ⟨fun _ _ => rfl, fun hafter => nomatch hafter⟩

end calls

/-- All calls of `loopyTTYNew` succeed. -/
def succeeds : NewOutcome := ⟨true, true, true, true⟩

/-- The only handle of a terminal. -/
def onlyHandle (mode : LoopyTTYMode) : LoopyTTY Unit where
  id := 0
  terminal := ()
  mode := mode
  origTermios := shellSettings
  origSaved := true

/-- One handle, which is freed in raw mode. -/
theorem restored_iff_one :
    ∃ s, Run sessionStep CallOK (Session.start fun _ : Unit => shellSettings)
      [.new succeeds (), .setMode 0 .raw, .free 0] s ∧ Restored s := by
  have hrun : ∃ s, Run sessionStep CallOK (Session.start fun _ : Unit => shellSettings)
      [.new succeeds (), .setMode 0 .raw, .free 0] s := by
    refine ⟨_, .cons trivial rfl (.cons trivial rfl (.cons ?_ rfl (.nil _)))⟩
    rintro tty - ⟨htty, -⟩
    obtain rfl : tty = onlyHandle .raw := List.mem_singleton.mp htty
    rfl
  obtain ⟨s, hrun⟩ := hrun
  have hany := hrun.mono fun _ _ _ => trivial
  exact ⟨s, hrun, (restored_iff hany).mpr hrun _ s List.prefix_rfl hany⟩

/-- The second handle saves the raw settings of the first one, and is freed after it. -/
theorem restored_fails :
    ¬ ∀ (settings : Unit → Termios) calls s,
      Run sessionStep (fun _ _ => True) (Session.start settings) calls s → Restored s := by
  intro h
  have hrun : ∃ s, Run sessionStep (fun _ _ => True)
      (Session.start fun _ : Unit => shellSettings)
      [.new succeeds (), .setMode 0 .raw, .new succeeds (), .free 0, .free 1] s ∧
      s.world.ttyList = [] ∧ s.original () = shellSettings ∧
        s.world.settings () = rawSettings shellSettings :=
    ⟨_, .cons trivial rfl (.cons trivial rfl (.cons trivial rfl (.cons trivial rfl
      (.cons trivial rfl (.nil _))))), rfl, rfl, rfl⟩
  obtain ⟨s, hrun, hlist, horiginal, hsettings⟩ := hrun
  have hfreed := (h _ _ s hrun).freed () (by rw [World.live, hlist]; exact List.not_mem_nil)
  rw [hsettings, horiginal] at hfreed
  exact absurd (congrArg Termios.c_lflag hfreed) (by decide)

end Loopy.TTY
