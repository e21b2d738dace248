import Mathlib.Data.UInt
import Netstack.Foundation.ByteStrings
import Netstack.Foundation.Execution

/-!
# The statistics of the sockets

Each of the three kinds of sockets has counters under a mutex of its own. A report takes the
three mutexes after its own one, builds a text from all counters and publishes it; if that
succeeds the counters start again.

## Implementation notes

A counter that is in none of the maps is 0. The host name that is kept with an address is
not a count and is left out. What was recorded and what was published stands beside the
counters.
-/

namespace Netstack.SocketStats

open Foundation

inductive SocketKind where
  | tls
  | ws
  | wss
  deriving DecidableEq, Repr

/-- The counters of `SocketProtoStats`, and for an address those of `SocketErrorStats`. -/
inductive Counter where
  | totalConnectCount
  | successConnectCount
  | successTimeMs
  | dnsCount
  | totalDnsTimeMs
  | tcpHandshakeCount
  | totalTcpHandshakeTimeMs
  | tlsHandshakeCount
  | totalTlsHandshakeTimeMs
  | httpUpgradeCount
  | totalHttpUpgradeTimeMs
  | versionCount (version : Bytes)
  | totalCount (dstIp : Bytes)
  | abnormalCount (dstIp : Bytes)
  | versionInfo (dstIp version : Bytes)
  | socketErrorCode (dstIp : Bytes) (errCode : Int)
  deriving DecidableEq, Repr

/-- A call of one of the functions `Record…`. -/
inductive Record where
  | totalConnect (dstIp : Bytes)
  | abnormalConnect (dstIp : Bytes) (errCode : Int)
  | versionError (dstIp version : Bytes)
  | connectAttempt
  | connectSuccess (timeMs : UInt32)
  | dnsTime (timeMs : UInt32)
  | tcpHandshakeTime (timeMs : UInt32)
  | tlsHandshakeTime (timeMs : UInt32)
  | httpUpgradeTime (timeMs : UInt32)
  | version (version : Bytes)

def Record.additions : Record → List (Counter × UInt32)
  | .totalConnect dstIp => [(.totalCount dstIp, 1)]
  | .abnormalConnect dstIp errCode =>
    [(.abnormalCount dstIp, 1), (.socketErrorCode dstIp errCode, 1)]
  | .versionError dstIp v => [(.versionInfo dstIp v, 1)]
  | .connectAttempt => [(.totalConnectCount, 1)]
  | .connectSuccess timeMs => [(.successConnectCount, 1), (.successTimeMs, timeMs)]
  | .dnsTime timeMs => [(.dnsCount, 1), (.totalDnsTimeMs, timeMs)]
  | .tcpHandshakeTime timeMs => [(.tcpHandshakeCount, 1), (.totalTcpHandshakeTimeMs, timeMs)]
  | .tlsHandshakeTime timeMs => [(.tlsHandshakeCount, 1), (.totalTlsHandshakeTimeMs, timeMs)]
  | .httpUpgradeTime timeMs => [(.httpUpgradeCount, 1), (.totalHttpUpgradeTimeMs, timeMs)]
  | .version v => [(.versionCount v, 1)]

abbrev Counters := SocketKind → Counter → UInt32

def Counters.add (c : Counters) (kind : SocketKind) (a : Counter × UInt32) : Counters :=
  Function.update c kind (Function.update (c kind) a.1 (c kind a.1 + a.2))

def Counters.record (c : Counters) (kind : SocketKind) (r : Record) : Counters :=
  r.additions.foldl (fun c a => c.add kind a) c

/-- How far a call of `TryReportStatistics` is. The mutexes are taken in the order of the
kinds. -/
inductive Reporter where
  | idle
  | due
  | locked (last : SocketKind)
  | built (report : Counters)

def Reporter.holds : Reporter → SocketKind → Bool
  | .idle, _ | .due, _ => false
  | .locked .tls, kind => kind = .tls
  | .locked .ws, kind => kind ≠ .wss
  | .locked .wss, _ | .built _, _ => true

abbrev Records := List (SocketKind × Record)

structure Statistics where
  counters : Counters := fun _ _ => 0
  lastReportTime : Int := 0
  reporter : Reporter := .idle
  recorded : Records := []
  published : List Counters := []

inductive Event where
  | record (kind : SocketKind) (r : Record)
  | tryReportStatistics (currentTime : Int)
  | lock
  | build
  | publish (succeeds : Bool)

def reportTimeInterval : Int := 5 * 60

variable (s : Statistics)

/-- The part of `TryReportStatistics` that needs no counters. -/
def tryReportStatistics (currentTime : Int) : Statistics :=
  let lastReportTime := if s.lastReportTime = 0 then currentTime else s.lastReportTime
  if currentTime - lastReportTime < reportTimeInterval then
    { s with lastReportTime := lastReportTime }
  else { s with lastReportTime := currentTime, reporter := .due }

/-- A thread that waits for a mutex makes no step. -/
def step : Event → Option Statistics
  | .record kind r =>
    if s.reporter.holds kind then none
    else some { s with
      counters := s.counters.record kind r, recorded := s.recorded ++ [(kind, r)] }
  | .tryReportStatistics currentTime =>
    match s.reporter with
    | .idle => some (tryReportStatistics s currentTime)
    | _ => none
  | .lock =>
    match s.reporter with
    | .due => some { s with reporter := .locked .tls }
    | .locked .tls => some { s with reporter := .locked .ws }
    | .locked .ws => some { s with reporter := .locked .wss }
    | _ => none
  | .build =>
    match s.reporter with
    | .locked .wss => some { s with reporter := .built s.counters }
    | _ => none
  | .publish succeeds =>
    match s.reporter with
    | .built report =>
      some (if succeeds then
        { s with counters := fun _ _ => 0, reporter := .idle, published := s.published ++ [report] }
      else { s with reporter := .idle })
    | _ => none

/-- What a list of additions comes to in one counter, modulo 2^32. -/
def sumTo (k : Counter) (additions : List (Counter × UInt32)) : UInt32 :=
  (additions.map fun a => if a.1 = k then a.2 else 0).sum

def tally (records : Records) : Counters := fun kind k =>
  sumTo k (records.flatMap fun r => if r.1 = kind then r.2.additions else [])

theorem foldl_add_apply (additions : List (Counter × UInt32)) (c : Counters)
    (kind kind' : SocketKind) (k : Counter) :
    additions.foldl (fun c a => c.add kind a) c kind' k =
      c kind' k + sumTo k (if kind = kind' then additions else []) := by
  induction additions generalizing c with
  | nil => simp [sumTo]
  | cons a additions ih =>
      rw [List.foldl_cons, ih, Counters.add]
      by_cases hkind : kind = kind'
      · subst hkind
        by_cases hk : a.1 = k
        · simp [sumTo, ← hk, UInt32.add_assoc]
        · simp [sumTo, hk, Function.update_of_ne (Ne.symm hk)]
      · simp [sumTo, hkind, Function.update_of_ne (Ne.symm hkind)]

theorem tally_concat (records : Records) (kind : SocketKind) (r : Record) :
    tally (records ++ [(kind, r)]) = (tally records).record kind r := by
  funext kind' k
  rw [Counters.record, foldl_add_apply]
  simp [tally, sumTo]

/-- The records fall into those of each published report and those that the counters
have. -/
def Divided : Prop :=
  ∃ (reports : List Records) (pending : Records),
    s.recorded = reports.flatten ++ pending ∧ s.published = reports.map tally ∧
      s.counters = tally pending

structure Accounted (s : Statistics) : Prop where
  divided : Divided s
  built : ∀ report, s.reporter = .built report → report = s.counters

theorem accounted_step {s t : Statistics} {e : Event} (hs : Accounted s)
    (h : step s e = some t) : Accounted t := by
  obtain ⟨⟨reports, pending, hrecorded, hpublished, hcounters⟩, hbuilt⟩ := hs
  cases e with
  | record kind r =>
      obtain ⟨hfree, ⟨⟩⟩ := Option.ite_none_left_eq_some.mp h
      refine ⟨⟨reports, pending ++ [(kind, r)], ?_, hpublished, ?_⟩, ?_⟩
      · rw [hrecorded, List.append_assoc]
      · rw [hcounters, tally_concat]
      · intro report hreport
        exact absurd (by rw [show s.reporter = .built report from hreport]; rfl) hfree
  | tryReportStatistics currentTime =>
      simp only [step] at h
      split at h
      · cases h
        refine ⟨⟨reports, pending, ?_⟩, ?_⟩
        · unfold tryReportStatistics
          grind
        · unfold tryReportStatistics
          grind
      · cases h
  | lock =>
      simp only [step] at h
      split at h <;> cases h <;>
        exact ⟨⟨reports, pending, hrecorded, hpublished, hcounters⟩, nofun⟩
  | build =>
      simp only [step] at h
      split at h <;> cases h
      refine ⟨⟨reports, pending, hrecorded, hpublished, hcounters⟩, ?_⟩
      rintro report ⟨⟩
      rfl
  | publish succeeds =>
      simp only [step] at h
      split at h
      · next report hreport =>
          cases h
          cases succeeds with
          | false => exact ⟨⟨reports, pending, hrecorded, hpublished, hcounters⟩, nofun⟩
          | true =>
              refine ⟨⟨reports ++ [pending], [], ?_, ?_, rfl⟩, nofun⟩
              · simp [hrecorded]
              · simp [hpublished, hbuilt report hreport, hcounters]
      · cases h

/-- In any run each record is in exactly one published report or still in the counters. -/
theorem records_published_or_pending (events : List Event) {s : Statistics}
    (h : events.foldlM step {} = some s) : Divided s := by
  have hstart : Accounted {} := ⟨⟨[], [], rfl, rfl, rfl⟩, nofun⟩
  exact (Execution.foldlM_invariant (fun _ _ _ => accounted_step) events hstart h).divided

/-- The first report is not published. -/
def sampleRun : List Event :=
  [.record .ws .connectAttempt, .tryReportStatistics 1, .tryReportStatistics 301, .lock,
    .record .wss (.dnsTime 7), .lock, .lock, .build, .publish false, .record .ws .connectAttempt,
    .tryReportStatistics 601, .lock, .lock, .lock, .build, .publish true]

theorem records_published_or_pending_sampleRun :
    ∃ s, sampleRun.foldlM step {} = some s ∧
      s.published.map (fun report => report .ws .totalConnectCount) = [2] ∧ Divided s :=
  ⟨_, rfl, rfl, records_published_or_pending sampleRun rfl⟩

end Netstack.SocketStats
