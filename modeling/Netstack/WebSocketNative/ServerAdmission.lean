import Netstack.Foundation.Execution
import Netstack.Foundation.SlidingWindows
import Netstack.WebSocketNative.ServerContext

/-!
# How many connections of one client are allowed

`IsAllowConnection` counts the connections of a client from the first one on for a minute, refuses
the next one when the counter is above its limit, and bans the client then.

## Implementation notes

The readings of the clock do not decrease. The times of the calls that were allowed are a history.
-/

namespace Netstack.WebSocketServer

open Function Foundation Foundation.Execution List ClientInfo ServerContext Option

/-- The minute that began with the first connection is not over. -/
def ClientInfo.Current (info : ClientInfo) (now : UInt64) : Prop :=
  info.lastConnectionTime ≤ now ∧ now - info.lastConnectionTime ≤ oneMinuteInSec

instance (info : ClientInfo) (now : UInt64) : Decidable (info.Current now) :=
  inferInstanceAs (Decidable (_ ∧ _))

variable {info : ClientInfo}

theorem ClientInfo.current_iff {now : UInt64} :
    info.Current now ↔ info.lastConnectionTime.toNat ≤ now.toNat ∧
      now.toNat ≤ info.lastConnectionTime.toNat + 60 := by
  unfold Current
  rw [UInt64.le_iff_toNat_le, UInt64.le_iff_toNat_le, and_congr_right_iff]
  intro hle
  rw [UInt64.toNat_sub_of_le _ _ (UInt64.le_iff_toNat_le.mpr hle)]
  exact Nat.sub_le_iff_le_add'

namespace ServerContext

variable {κ : Type}

def isHighFreqConnection (c : ServerContext κ) (now : UInt64) (ip : Bytes) : Bool :=
  match c.clientList[ip]? with
  | some info => if info.Current now then maxConnectionsPerMinute < info.cnt else false
  | none => false

/-- The counter of a client and the beginning of its minute, as a connection finds them. -/
def counter (c : ServerContext κ) (now : UInt64) (ip : Bytes) : Nat × UInt64 :=
  match c.clientList[ip]? with
  | some info => if info.Current now then (info.cnt, info.lastConnectionTime) else (0, now)
  | none => (0, now)

section Lookups

variable {c : ServerContext κ} {now : UInt64} {ip : Bytes}

/-- Clients whose minute is over are forgotten. -/
def Forgets (clients' clients : Std.ExtTreeMap Bytes ClientInfo) (now : UInt64) : Prop :=
  ∀ ip : Bytes, clients'[ip]? = clients[ip]? ∨
    clients'[ip]? = none ∧
      ∃ info : ClientInfo, clients[ip]? = some info ∧
        info.lastConnectionTime.toNat + 60 < now.toNat

theorem forgets_shortenClientList (c : ServerContext κ) (now : UInt64) :
    Forgets (c.shortenClientList now).clientList c.clientList now := by
  intro ip
  unfold shortenClientList
  split
  · rw [Std.ExtTreeMap.getElem?_filter']
    cases hinfo : c.clientList[ip]? with
    | none => exact Or.inl rfl
    | some info =>
      by_cases hold : info.lastConnectionTime ≤ now ∧
          oneMinuteInSec < now - info.lastConnectionTime
      · refine Or.inr ⟨by simp [hold], info, rfl, ?_⟩
        have hless := UInt64.lt_iff_toNat_lt.mp hold.2
        rw [UInt64.toNat_sub_of_le _ _ hold.1] at hless
        exact Nat.add_lt_of_lt_sub' hless
      · exact Or.inl (by simp [Option.filter, hold])
  · exact Or.inl rfl

/-- No client whose minute is not over is forgotten. -/
theorem Forgets.current_iff {clients' clients : Std.ExtTreeMap Bytes ClientInfo} {before : UInt64}
    (h : Forgets clients' clients before) (hle : before ≤ now) (hcurrent : info.Current now) :
    clients'[ip]? = some info ↔ clients[ip]? = some info := by
  rcases h ip with hsame | ⟨hnone, info', hinfo', hold⟩
  · rw [hsame]
  · refine iff_of_false (fun hsome => absurd (hnone.symm.trans hsome) nofun) fun hsome => ?_
    obtain rfl := some.inj (hinfo'.symm.trans hsome)
    have hend := (ClientInfo.current_iff.mp hcurrent).2
    have hnow := UInt64.le_iff_toNat_le.mp hle
    omega

theorem counter_of_current (hinfo : c.clientList[ip]? = some info)
    (hcurrent : info.Current now) : c.counter now ip = (info.cnt, info.lastConnectionTime) := by
  simp [counter, hinfo, hcurrent]

theorem counter_of_not_current (h : ∀ info, c.clientList[ip]? = some info → ¬ info.Current now) :
    c.counter now ip = (0, now) := by
  unfold counter
  grind

theorem isHighFreqConnection_of_current
    (hinfo : c.clientList[ip]? = some info) (hcurrent : info.Current now) :
    c.isHighFreqConnection now ip = decide (maxConnectionsPerMinute < info.cnt) := by
  simp [isHighFreqConnection, hinfo, hcurrent]

theorem isHighFreqConnection_of_not_current
    (h : ∀ info, c.clientList[ip]? = some info → ¬ info.Current now) :
    c.isHighFreqConnection now ip = false := by
  unfold isHighFreqConnection
  grind

end Lookups

/-- What the count of a connection does. -/
inductive Counts (c : ServerContext κ) (now banned : UInt64) (ip : Bytes) :
    Bool × ServerContext κ → Prop
  | opened (hover : ∀ info, c.clientList[ip]? = some info → ¬ info.Current now) :
      Counts c now banned ip (true, { c with clientList := c.clientList.insert ip ⟨1, now⟩ })
  | refused {info : ClientInfo} (hinfo : c.clientList[ip]? = some info)
      (hcurrent : info.Current now) (hfull : maxConnectionsPerMinute < info.cnt) :
      Counts c now banned ip (false, c.addBanList banned ip)
  | counted {info : ClientInfo} (hinfo : c.clientList[ip]? = some info)
      (hcurrent : info.Current now) (hroom : info.cnt ≤ maxConnectionsPerMinute) :
      Counts c now banned ip
        (true, { c with
          clientList := c.clientList.insert ip { info with cnt := info.cnt + 1 } })

variable (c : ServerContext κ)

theorem counts_countConnection (now banned : UInt64) (ip : Bytes) :
    Counts c now banned ip (c.countConnection now banned ip) := by
  unfold countConnection
  cases hinfo : c.clientList[ip]? with
  | none => exact .opened fun info hsome => absurd (hinfo.symm.trans hsome) nofun
  | some info =>
    have hover (h : ¬ info.Current now) (info' : ClientInfo)
        (hsome : c.clientList[ip]? = some info') : ¬ info'.Current now := by
      obtain rfl := some.inj (hinfo.symm.trans hsome)
      exact h
    dsimp only
    split_ifs with hback hold hfull
    · exact .opened (hover fun hcurrent => UInt64.not_le.mpr hback hcurrent.1)
    · exact .opened (hover fun hcurrent => UInt64.not_le.mpr hold hcurrent.2)
    · exact .refused hinfo ⟨UInt64.not_lt.mp hback, UInt64.not_lt.mp hold⟩ hfull
    · exact .counted hinfo ⟨UInt64.not_lt.mp hback, UInt64.not_lt.mp hold⟩ (Nat.not_lt.mp hfull)

theorem isIpInBanList_fst (now : UInt64) (ip : Bytes) :
    (c.isIpInBanList now ip).1 = decide (∃ b ∈ c.banList[ip]?, now < b) := by
  unfold isIpInBanList
  grind

theorem isAllowConnection_cases (now : Nat → UInt64) (ip : Bytes) :
    (∃ b ∈ c.banList[ip]?, now 0 < b) ∧ c.isAllowConnection now ip = (false, c) ∨
      (¬ ∃ b ∈ c.banList[ip]?, now 0 < b) ∧
        ∃ c' : ServerContext κ, Forgets c'.clientList c.clientList (now 1) ∧
          (∀ ip', c'.banList[ip']? = if ip' = ip then none else c.banList[ip']?) ∧
          Counts c' (now 2) (now 3) ip (c.isAllowConnection now ip) := by
  have hforgets (c : ServerContext κ) := forgets_shortenClientList c (now 1)
  have hcounts (c : ServerContext κ) := c.counts_countConnection (now 2) (now 3) ip
  have hbanList (c : ServerContext κ) : (c.shortenClientList (now 1)).banList = c.banList := by
    unfold shortenClientList
    split <;> rfl
  unfold isAllowConnection isIpInBanList
  grind

end ServerContext

/-- A call of `IsAllowConnection`, with its readings of the clock. -/
structure AdmissionCall where
  ip : Bytes
  now : Nat → UInt64

structure Limiter (κ : Type) where
  context : ServerContext κ := {}
  /-- The last reading of the clock. -/
  clock : UInt64 := 0
  /-- The times of the calls that were allowed. -/
  allowed : Bytes → List Nat := fun _ => []

namespace Limiter

variable {κ : Type}

variable (s : Limiter κ)

def step (e : AdmissionCall) : Option (Limiter κ) :=
  if (s.clock ≤ e.now 0 ∧ e.now 0 ≤ e.now 1) ∧ e.now 1 ≤ e.now 2 ∧ e.now 2 ≤ e.now 3 then
    let answer := s.context.isAllowConnection e.now e.ip
    some {
      context := answer.2
      clock := e.now 3
      allowed :=
        if answer.1 then
          update s.allowed e.ip (s.allowed e.ip ++ [(e.now 2).toNat])
        else s.allowed }
  else none

/-- At most `MAX_CONNECTIONS_PER_MINUTE` calls for a client are allowed in any sixty seconds. -/
def Limited : Prop :=
  ∀ ip, Sparse maxConnectionsPerMinute 60 (s.allowed ip)

/-- The client is refused by one of the two lists, or its counter and the connections before its
minute that are less than a minute old are below the limit. In the last second of the minute the
first connection is old enough. -/
def Spread (e : AdmissionCall) : Prop :=
  (s.context.isIpInBanList (e.now 0) e.ip).1 = true ∨
    s.context.isHighFreqConnection (e.now 2) e.ip = true ∨
    let (cnt, start) := s.context.counter (e.now 2) e.ip
    e.now 2 - start = oneMinuteInSec ∨
      cnt + (s.allowed e.ip).countP
        (fun u => u < start.toNat ∧ (e.now 2).toNat < u + 60) < maxConnectionsPerMinute

instance (e : AdmissionCall) : Decidable (s.Spread e) := by
  unfold Spread
  infer_instance

variable {c : ServerContext κ} {now : UInt64} {ip : Bytes} {times : List Nat}

section Windows

/-- What the counter of a client says about the times of its connections. -/
structure Window (info : ClientInfo) (times : List Nat) : Prop where
  counts : times.countP (fun u => info.lastConnectionTime.toNat ≤ u) = info.cnt
  within : ∀ u ∈ times, u ≤ info.lastConnectionTime.toNat + 60
  first : info.lastConnectionTime.toNat ∈ times

structure Windows (clients : Std.ExtTreeMap Bytes ClientInfo) (clock : Nat)
    (allowed : Bytes → List Nat) : Prop where
  past : ∀ ip, ∀ u ∈ allowed ip, u ≤ clock
  listed : ∀ ip info, clients[ip]? = some info → Window info (allowed ip)
  unlisted : ∀ ip, clients[ip]? = none → ∀ u ∈ allowed ip, u < clock

variable {clients : Std.ExtTreeMap Bytes ClientInfo} {clock : Nat} {allowed : Bytes → List Nat}

theorem Windows.later (h : Windows clients clock allowed) {now : Nat} (hnow : clock ≤ now) :
    Windows clients now allowed where
  past ip u hu := (h.past ip u hu).trans hnow
  listed := h.listed
  unlisted ip hip u hu := (h.unlisted ip hip u hu).trans_le hnow

theorem Windows.forget {clients' : Std.ExtTreeMap Bytes ClientInfo}
    (h : Windows clients now.toNat allowed) (hforgets : Forgets clients' clients now) :
    Windows clients' now.toNat allowed where
  past := h.past
  listed ip info hinfo := by
    rcases hforgets ip with hsame | ⟨hnone, -⟩
    · exact h.listed ip info (hsame.symm.trans hinfo)
    · cases hnone.symm.trans hinfo
  unlisted ip hip u hu := by
    rcases hforgets ip with hsame | ⟨-, info, hinfo, hold⟩
    · exact h.unlisted ip (hsame.symm.trans hip) u hu
    · exact ((h.listed ip info hinfo).within u hu).trans_lt hold

/-- The connections of a client whose minute is over came before now. -/
theorem Windows.lt_of_over (h : Windows clients now.toNat allowed)
    (hover : ∀ info, clients[ip]? = some info → ¬ info.Current now) :
    ∀ u ∈ allowed ip, u < now.toNat := by
  cases hinfo : clients[ip]? with
  | none => exact h.unlisted ip hinfo
  | some info =>
    have hwindow := h.listed ip info hinfo
    have hstart := h.past ip _ hwindow.first
    have hold : info.lastConnectionTime.toNat + 60 < now.toNat :=
      Nat.not_le.mp fun hle => hover info hinfo (current_iff.mpr ⟨hstart, hle⟩)
    exact fun u hu => (hwindow.within u hu).trans_lt hold

/-- A connection is allowed, and its client has a new counter. -/
theorem Windows.allow (h : Windows clients now.toNat allowed)
    (hinfo : Window info (allowed ip ++ [now.toNat])) :
    Windows (clients.insert ip info) now.toNat
      (update allowed ip (allowed ip ++ [now.toNat])) := by
  have hpast (u : Nat) (hu : u ∈ allowed ip ++ [now.toNat]) : u ≤ now.toNat := by
    rcases mem_append.mp hu with hold | hnew
    · exact h.past ip u hold
    · exact (mem_singleton.mp hnew).le
  constructor
  · intro ip' u hu
    by_cases hip : ip' = ip
    · subst hip
      rw [update_self] at hu
      exact hpast u hu
    · rw [update_of_ne hip] at hu
      exact h.past ip' u hu
  · grind [@h.listed]
  · intro ip' hnone
    rw [FiniteMaps.getElem?_insert] at hnone
    by_cases hip : ip' = ip
    · rw [if_pos hip] at hnone
      cases hnone
    · rw [if_neg hip] at hnone
      rw [update_of_ne hip]
      exact h.unlisted ip' hnone

theorem window_opened (hpast : ∀ u ∈ times, u < now.toNat) :
    Window ⟨1, now⟩ (times ++ [now.toNat]) where
  counts := by
    have hnone : times.countP (fun u => now.toNat ≤ u) = 0 :=
      countP_eq_zero.mpr fun u hu =>
        mt of_decide_eq_true (Nat.not_le.mpr (hpast u hu))
    rw [countP_append, hnone, countP_singleton, if_pos (decide_eq_true le_rfl)]
  within u hu := by
    rcases mem_append.mp hu with hold | hnew
    · exact (hpast u hold).le.trans (Nat.le_add_right _ _)
    · rw [mem_singleton.mp hnew]
      exact Nat.le_add_right _ _
  first := mem_append_right _ (mem_singleton.mpr rfl)

theorem Window.counted (h : Window info times) (hcurrent : info.Current now) :
    Window { info with cnt := info.cnt + 1 } (times ++ [now.toNat]) where
  counts := by
    have hstart := (current_iff.mp hcurrent).1
    rw [countP_append, h.counts, countP_singleton, if_pos (decide_eq_true hstart)]
  within u hu := by
    rcases mem_append.mp hu with hold | hnew
    · exact h.within u hold
    · rw [mem_singleton.mp hnew]
      exact (current_iff.mp hcurrent).2
  first := mem_append_left _ h.first

/-- A connection that its counter lets through finds few recent ones exactly if the counter and
those before it are few. -/
theorem Windows.recent_lt_iff (h : Windows c.clientList now.toNat allowed)
    (hfreq : c.isHighFreqConnection now ip = false) :
    recent 60 (allowed ip) now.toNat < maxConnectionsPerMinute ↔
      now - (c.counter now ip).2 = oneMinuteInSec ∨
        (c.counter now ip).1 + (allowed ip).countP
          (fun u => u < (c.counter now ip).2.toNat ∧ now.toNat < u + 60) <
            maxConnectionsPerMinute := by
  by_cases hcurrent : ∃ info, c.clientList[ip]? = some info ∧ info.Current now
  · obtain ⟨info, hinfo, hcurrent⟩ := hcurrent
    have hwindow := h.listed ip info hinfo
    obtain ⟨hstart, hend⟩ := current_iff.mp hcurrent
    have hroom : info.cnt ≤ maxConnectionsPerMinute := by
      grind [isHighFreqConnection_of_current]
    have hlast : now - info.lastConnectionTime = oneMinuteInSec ↔
        now.toNat = info.lastConnectionTime.toNat + 60 := by
      rw [← UInt64.toNat_inj, UInt64.toNat_sub_of_le _ _ hcurrent.1]
      exact Nat.sub_eq_iff_eq_add' hstart
    rw [counter_of_current hinfo hcurrent]
    rw [hlast]
    by_cases hminute : now.toNat = info.lastConnectionTime.toNat + 60
    · have hold := recent_lt_countP (d := 60) hwindow.first
      grind [@hwindow.counts]
    · have hrecent := recent_eq_add (allowed ip) (lt_of_le_of_ne hend hminute)
      grind [@hwindow.counts]
  · have hover (info : ClientInfo) (hinfo : c.clientList[ip]? = some info) :
        ¬ info.Current now := fun hnow => hcurrent ⟨info, hinfo, hnow⟩
    have hpast := h.lt_of_over hover
    have hrecent := recent_eq_add (d := 60) (allowed ip)
      (Nat.lt_add_of_pos_right (n := now.toNat) (by decide))
    have hnone : (allowed ip).countP (fun u => now.toNat ≤ u) = 0 :=
      countP_eq_zero.mpr fun u hu =>
        mt of_decide_eq_true (Nat.not_le.mpr (hpast u hu))
    have hzero : now - now ≠ oneMinuteInSec := by
      rw [UInt64.sub_self]
      decide
    rw [counter_of_not_current hover, hrecent, hnone]
    exact (or_iff_right hzero).symm

end Windows

section Steps

def Tracked : Prop := Windows s.context.clientList s.clock.toNat s.allowed

/-- What a call does to the times of the connections. -/
inductive Admits (s t : Limiter κ) (e : AdmissionCall) : Prop
  | refused (hlists : (s.context.isIpInBanList (e.now 0) e.ip).1 = true ∨
        s.context.isHighFreqConnection (e.now 2) e.ip = true) (hallowed : t.allowed = s.allowed)
  | allowed (hban : (s.context.isIpInBanList (e.now 0) e.ip).1 = false)
      (hfreq : s.context.isHighFreqConnection (e.now 2) e.ip = false)
      (hallowed : t.allowed =
        update s.allowed e.ip (s.allowed e.ip ++ [(e.now 2).toNat]))

theorem Tracked.step {s t : Limiter κ} {e : AdmissionCall} (h : s.Tracked)
    (hstep : s.step e = some t) : t.Tracked ∧ Admits s t e := by
  obtain ⟨⟨⟨h₀, h₁⟩, h₂, h₃⟩, ht⟩ := ite_none_right_eq_some.mp hstep
  cases ht
  have hclock : s.clock ≤ e.now 1 := UInt64.le_trans h₀ h₁
  have hban := isIpInBanList_fst s.context (e.now 0) e.ip
  rcases isAllowConnection_cases s.context e.now e.ip with
    ⟨hbanned, hanswer⟩ | ⟨hfree, c, hforgets, -, hcounts⟩
  · rw [hanswer]
    refine ⟨h.later ?_, .refused (Or.inl (hban.trans (decide_eq_true hbanned))) rfl⟩
    exact UInt64.le_iff_toNat_le.mp (UInt64.le_trans hclock (UInt64.le_trans h₂ h₃))
  · generalize s.context.isAllowConnection e.now e.ip = answer at hcounts
    have hwindows : Windows c.clientList (e.now 2).toNat s.allowed :=
      ((h.later (UInt64.le_iff_toNat_le.mp hclock)).forget hforgets).later
        (UInt64.le_iff_toNat_le.mp h₂)
    have hlater := UInt64.le_iff_toNat_le.mp h₃
    have hkept {info : ClientInfo} (hcurrent : info.Current (e.now 2)) :
        c.clientList[e.ip]? = some info ↔ s.context.clientList[e.ip]? = some info :=
      hforgets.current_iff h₂ hcurrent
    rw [decide_eq_false hfree] at hban
    cases hcounts with
    | opened hover =>
      have hfreq := isHighFreqConnection_of_not_current (c := s.context)
        fun info hinfo hcurrent => hover info ((hkept hcurrent).mpr hinfo) hcurrent
      refine ⟨?_, .allowed hban hfreq rfl⟩
      exact (hwindows.allow (window_opened (hwindows.lt_of_over hover))).later hlater
    | refused hinfo hcurrent hfull =>
      have hfreq := isHighFreqConnection_of_current ((hkept hcurrent).mp hinfo)
        hcurrent
      exact ⟨hwindows.later hlater, .refused (Or.inr (hfreq.trans (decide_eq_true hfull))) rfl⟩
    | counted hinfo hcurrent hroom =>
      have hfreq := isHighFreqConnection_of_current ((hkept hcurrent).mp hinfo)
        hcurrent
      refine ⟨?_, .allowed hban (hfreq.trans (decide_eq_false (Nat.not_lt.mpr hroom))) rfl⟩
      exact (hwindows.allow ((hwindows.listed _ _ hinfo).counted hcurrent)).later hlater

theorem tracked_default : ({} : Limiter κ).Tracked :=
  ⟨fun ip u hu => absurd hu not_mem_nil, fun ip info hinfo => absurd hinfo (by simp),
    fun ip _ u hu => absurd hu not_mem_nil⟩

theorem limited_step_iff {s t : Limiter κ} {e : AdmissionCall} (h : s.Tracked)
    (hlimited : s.Limited) (hstep : s.step e = some t) : t.Limited ↔ s.Spread e := by
  obtain ⟨-, hadmits⟩ := h.step hstep
  obtain ⟨⟨⟨h₀, h₁⟩, h₂, -⟩, -⟩ := ite_none_right_eq_some.mp hstep
  cases hadmits with
  | refused hlists hallowed =>
    have ht : t.Limited := by
      rw [Limited, hallowed]
      exact hlimited
    exact iff_of_true ht (or_assoc.mp (Or.inl hlists))
  | allowed hban hfreq hallowed =>
    have hwindows : Windows s.context.clientList (e.now 2).toNat s.allowed :=
      h.later (UInt64.le_iff_toNat_le.mp (UInt64.le_trans h₀ (UInt64.le_trans h₁ h₂)))
    have hspread : s.Spread e ↔
        recent 60 (s.allowed e.ip) (e.now 2).toNat < maxConnectionsPerMinute := by
      rw [hwindows.recent_lt_iff hfreq, Spread, hban, hfreq]
      simp only [Bool.false_eq_true, false_or]
    have happend := sparse_append_iff (n := maxConnectionsPerMinute) (d := 60) (by decide)
      (hwindows.past e.ip)
    rw [hspread]
    constructor
    · intro ht
      have hip := ht e.ip
      rw [hallowed, update_self] at hip
      exact (happend.mp hip).2
    · intro hrecent ip
      rw [hallowed]
      by_cases hip : ip = e.ip
      · rw [hip, update_self]
        exact happend.mpr ⟨hlimited e.ip, hrecent⟩
      · rw [update_of_ne hip]
        exact hlimited ip

end Steps

/-- In any run the counters tell the times of the connections, and a call only adds its own. -/
theorem connections_tracked (calls : List AdmissionCall) :
    Throughout step (fun s => s.Tracked ∧ ∀ e, ∀ t ∈ s.step e, Admits s t e) calls
      ({} : Limiter κ) :=
  throughout_of_invariant (fun _ _ _ hs hstep => (hs.step hstep).1)
    (fun _ hs => ⟨hs, fun _ _ hstep => (hs.step hstep).2⟩) calls tracked_default

/-- In any run the connections of every client are within the limit exactly if all calls find them
spread. -/
theorem connections_limited_iff (calls : List AdmissionCall) :
    Throughout step Limited calls ({} : Limiter κ) ↔ Meets step Spread calls ({} : Limiter κ) := by
  apply throughout_iff_meets (J := Tracked)
  · exact fun s e t hs hstep => (hs.step hstep).1
  · exact fun s e t hs hlimited hstep => limited_step_iff hs hlimited hstep
  · exact tracked_default
  · exact fun ip => sparse_nil

def sampleCall (now : UInt64) : AdmissionCall := ⟨ascii "10.0.0.1", fun _ => now⟩

/-- One call more than the limit, all in the same second. -/
def burst : List AdmissionCall := List.replicate 51 (sampleCall 100)

theorem burst_exceeds :
    ¬ Throughout step Limited burst ({} : Limiter Nat) ∧
      ∃ s, burst.foldlM step ({} : Limiter Nat) = some s ∧
        s.allowed (ascii "10.0.0.1") = List.replicate 51 100 := by
  refine (and_iff_right_of_imp ?_).mpr (by decide +kernel)
  rintro ⟨s, hs, hallowed⟩ hthrough
  have hperiod := hthrough.finish hs (ascii "10.0.0.1") 100
  rw [hallowed] at hperiod
  exact absurd hperiod (by decide)

/-- What the server keeps about one client. -/
structure Client where
  ban : Option UInt64 := none
  info : Option ClientInfo := none

/-- A call for a client, if there are no others. -/
def Client.call (x : Client) (now : Nat → UInt64) : Bool × Client :=
  if ∃ b ∈ x.ban, now 0 < b then (false, x)
  else
    match x.info.filter (·.Current (now 2)) with
    | none => (true, ⟨none, some ⟨1, now 2⟩⟩)
    | some info =>
      if maxConnectionsPerMinute < info.cnt then
        (false, ⟨some (now 3 + oneMinuteInSec), some info⟩)
      else (true, ⟨none, some { info with cnt := info.cnt + 1 }⟩)

section Bans

variable {s t : Limiter κ} {e : AdmissionCall} {x : Client}

def answer (s : Limiter κ) (e : AdmissionCall) : Bool :=
  (s.context.isAllowConnection e.now e.ip).1

/-- From the clock on, the context treats the client in this way. -/
structure Sees (ip : Bytes) (c : ServerContext κ) (clock : UInt64) (x : Client) : Prop where
  ban : c.banList[ip]? = x.ban
  client : ∀ info now, clock ≤ now → info.Current now →
    (c.clientList[ip]? = some info ↔ x.info = some info)

theorem Sees.later {clock : UInt64} (h : Sees ip c clock x) (hnow : clock ≤ now) :
    Sees ip c now x :=
  ⟨h.ban, fun info now' hle => h.client info now' (UInt64.le_trans hnow hle)⟩

theorem Sees.step (h : Sees ip s.context s.clock x) (hstep : s.step e = some t) :
    if e.ip = ip then
      s.answer e = (x.call e.now).1 ∧ Sees ip t.context t.clock (x.call e.now).2
    else Sees ip t.context t.clock x := by
  obtain ⟨⟨⟨h₀, h₁⟩, h₂, h₃⟩, ht⟩ := ite_none_right_eq_some.mp hstep
  have hclock : s.clock ≤ e.now 2 := UInt64.le_trans h₀ (UInt64.le_trans h₁ h₂)
  cases ht
  unfold answer
  rcases isAllowConnection_cases s.context e.now e.ip with
    ⟨hban, hanswer⟩ | ⟨hfree, c, hforgets, hbans, hcounts⟩
  · have hlater := h.later (UInt64.le_trans hclock h₃)
    rw [hanswer]
    by_cases hip : e.ip = ip
    · rw [hip, h.ban] at hban
      rw [if_pos hip, Client.call, if_pos hban]
      exact ⟨rfl, hlater⟩
    · rw [if_neg hip]
      exact hlater
  · generalize s.context.isAllowConnection e.now e.ip = answer at hcounts
    have hkept info now (hnow : e.now 2 ≤ now) (hcurrent : info.Current now) :
        c.clientList[ip]? = some info ↔ x.info = some info :=
      (hforgets.current_iff (UInt64.le_trans h₂ hnow) hcurrent).trans
        (h.client info now (UInt64.le_trans hclock hnow) hcurrent)
    have hban := h.ban
    by_cases hip : e.ip = ip
    · subst hip
      have hnow info := hkept info _ (UInt64.le_refl (e.now 2))
      rw [hban] at hfree
      rw [if_pos rfl, Client.call, if_neg hfree]
      cases hcounts with
      | opened hover =>
        have hnone : x.info.filter (fun info => info.Current (e.now 2)) = none :=
          filter_eq_none_iff.mpr (by grind)
        rw [hnone]
        exact ⟨rfl, by grind, by simp⟩
      | refused hinfo hcurrent | counted hinfo hcurrent =>
        rw [(hnow _ hcurrent).mp hinfo]
        grind [addBanList, Sees]
    · rw [if_neg hip]
      cases hcounts <;> grind [addBanList, Sees, UInt64.le_trans]

theorem Sees.run {calls : List AdmissionCall} (h : Sees ip s.context s.clock x)
    (hrun : calls.foldlM Limiter.step s = some t) :
    Sees ip t.context t.clock
      ((calls.filter (·.ip = ip)).foldl (fun x e => (x.call e.now).2) x) := by
  induction calls generalizing s x with
  | nil =>
    cases hrun
    exact h
  | cons e calls ih =>
    obtain ⟨s', hs', hrun⟩ := bind_eq_some_iff.mp hrun
    have hnext := h.step hs'
    by_cases hip : e.ip = ip
    · rw [if_pos hip] at hnext
      simpa [hip] using ih hnext.2 hrun
    · rw [if_neg hip] at hnext
      simpa [hip] using ih hnext hrun

theorem sees_self (ip : Bytes) (c : ServerContext κ) (clock : UInt64) :
    Sees ip c clock ⟨c.banList[ip]?, c.clientList[ip]?⟩ :=
  ⟨rfl, fun _ _ _ _ => Iff.rfl⟩

/-- The ban of a client is listed until it is over. -/
def Banned (ip : Bytes) (until_ : UInt64) (s : Limiter κ) : Prop :=
  s.context.banList[ip]? = some until_ ∨ until_ ≤ s.clock

theorem Banned.step {until_ : UInt64} (h : Banned ip until_ s) (hstep : s.step e = some t) :
    Banned ip until_ t ∧ (e.ip = ip → s.answer e = true → until_ ≤ e.now 0) := by
  obtain ⟨⟨⟨h₀, h₁⟩, h₂, h₃⟩, ht⟩ := ite_none_right_eq_some.mp hstep
  by_cases hover : until_ ≤ e.now 0
  · cases ht
    have hend := UInt64.le_trans h₁ (UInt64.le_trans h₂ h₃)
    exact ⟨Or.inr (UInt64.le_trans hover hend), fun _ _ => hover⟩
  · have hlisted := h.resolve_right fun hle => hover (UInt64.le_trans hle h₀)
    have hnext := (sees_self ip s.context s.clock).step hstep
    by_cases hip : e.ip = ip
    · rw [if_pos hip, Client.call, if_pos ⟨until_, hlisted, UInt64.not_le.mp hover⟩] at hnext
      rw [hnext.1]
      exact ⟨Or.inl (hnext.2.ban.trans hlisted), nofun⟩
    · rw [if_neg hip] at hnext
      exact ⟨Or.inl (hnext.ban.trans hlisted), fun heq => absurd heq hip⟩

/-- The call is refused, but not as one of a banned client. -/
def HighFrequency (s : Limiter κ) (e : AdmissionCall) : Prop :=
  (s.context.isIpInBanList (e.now 0) e.ip).1 = false ∧ s.answer e = false

instance (s : Limiter κ) (e : AdmissionCall) : Decidable (s.HighFrequency e) :=
  inferInstanceAs (Decidable (_ ∧ _))

theorem HighFrequency.counter (h : s.HighFrequency e) (hstep : s.step e = some t) :
    Banned e.ip (e.now 3 + oneMinuteInSec) t ∧
      ∃ info, s.context.clientList[e.ip]? = some info ∧ info.Current (e.now 2) ∧
        maxConnectionsPerMinute < info.cnt := by
  have hban := of_decide_eq_false ((isIpInBanList_fst ..).symm.trans h.1)
  obtain ⟨hanswer, hsees⟩ := (if_pos rfl).mp ((sees_self e.ip s.context s.clock).step hstep)
  rw [h.2, Client.call, if_neg hban] at hanswer
  rw [Client.call, if_neg hban] at hsees
  cases hinfo : s.context.clientList[e.ip]?.filter (fun info => info.Current (e.now 2)) with
  | none =>
    rw [hinfo] at hanswer
    cases hanswer
  | some info =>
    obtain ⟨hlisted, hcurrent⟩ := filter_eq_some_iff.mp hinfo
    grind [Banned, Sees]

/-- A call that is refused for its frequency comes after more than fifty that were allowed in the
last minute, and its client is banned for a minute. The answers for a client depend on its own
calls alone. -/
theorem bans_last {calls : List AdmissionCall} (hrun : calls.foldlM step {} = some s)
    (hstep : s.step e = some t) :
    (s.HighFrequency e →
      50 < (s.allowed e.ip).countP
        (fun u => (e.now 2).toNat ≤ u + 60 ∧ u ≤ (e.now 2).toNat)) ∧
    (s.HighFrequency e → (e.now 3).toNat + 60 < 2 ^ 64 →
      ∀ (later : List AdmissionCall) (u v : Limiter κ) (e' : AdmissionCall),
        later.foldlM step t = some u → u.step e' = some v → e'.ip = e.ip → u.answer e' = true →
          (e.now 3).toNat + 60 ≤ (e'.now 0).toNat) ∧
    ∀ (calls' : List AdmissionCall) (s' t' : Limiter κ), calls'.foldlM step {} = some s' →
      s'.step e = some t' → calls'.filter (·.ip = e.ip) = calls.filter (·.ip = e.ip) →
        s'.answer e = s.answer e := by
  refine ⟨fun hfreq => ?_, fun hfreq hlt later u v e' hlater hu hip hanswer => ?_, ?_⟩
  · obtain ⟨-, info, hinfo, hcurrent, hfull⟩ := hfreq.counter hstep
    have htracked : s.Tracked :=
      foldlM_invariant (fun s e t hs hstep => (hs.step hstep).1) calls tracked_default hrun
    obtain ⟨⟨⟨h₀, h₁⟩, h₂, -⟩, -⟩ := ite_none_right_eq_some.mp hstep
    have hclock := UInt64.le_iff_toNat_le.mp (UInt64.le_trans h₀ (UInt64.le_trans h₁ h₂))
    rw [← (htracked.listed e.ip info hinfo).counts] at hfull
    refine hfull.trans_le (countP_mono_left fun u hu hstart => ?_)
    have hpast := htracked.past e.ip u hu
    have hend := (current_iff.mp hcurrent).2
    simp only [decide_eq_true_eq] at hstart ⊢
    omega
  · have hkept := foldlM_invariant (fun s e t hs hstep => (Banned.step hs hstep).1) later
      (hfreq.counter hstep).1 hlater
    have hle : ((e.now 3).toNat + 60) % 2 ^ 64 ≤ (e'.now 0).toNat :=
      UInt64.le_iff_toNat_le.mp ((hkept.step hu).2 hip hanswer)
    rwa [Nat.mod_eq_of_lt hlt] at hle
  · intro calls' s' t' hrun' hstep' hown
    have hsees {calls : List AdmissionCall} {s : Limiter κ}
        (hrun : calls.foldlM step {} = some s) := (sees_self e.ip {} 0).run hrun
    have hsame := hsees hrun'
    rw [hown] at hsame
    exact ((if_pos rfl).mp (hsame.step hstep')).1.trans
      ((if_pos rfl).mp ((hsees hrun).step hstep)).1.symm

theorem bans_last_burst :
    ∃ s : Limiter Nat, s.HighFrequency (sampleCall 120) ∧
      50 < (s.allowed (ascii "10.0.0.1")).countP (fun u => 120 ≤ u + 60 ∧ u ≤ 120) := by
  have hrun : ∃ s, burst.foldlM step ({} : Limiter Nat) = some s ∧
      (s.step (sampleCall 120)).isSome ∧ s.HighFrequency (sampleCall 120) := by
    decide +kernel
  obtain ⟨s, hs, hstep, hfreq⟩ := hrun
  obtain ⟨t, ht⟩ := isSome_iff_exists.mp hstep
  exact ⟨s, hfreq, (bans_last hs ht).1 hfreq⟩

/-- A ban whose end overflows is over at once. -/
theorem ban_overflows :
    ((List.replicate 51 (sampleCall (-100))).foldlM step ({} : Limiter Nat)).any (fun s =>
      s.HighFrequency (sampleCall (-45)) ∧
        (s.step (sampleCall (-45))).any (·.answer (sampleCall (-39)))) = true := by
  decide +kernel

end Bans

end Limiter

end Netstack.WebSocketServer
