import Netstack.WebSocketNative.ClientFrames
import Netstack.WebSocketNative.ClientRuns

/-!
# What a step of the native WebSocket client does

Most steps leave the messages, the headers and the call that waits alone. The others begin or end
an attempt to connect, end a call that waits, establish a connection, or give a fragment to it.
-/

namespace Netstack.WebSocketClient

open Foundation Option

namespace System

variable {κ : Type}

/-- The answer that an attempt ends with. -/
inductive Answers (s : System κ) : Attempt κ → Int × Client κ → Prop
  | connect {env : Environment κ} {url : Bytes} {options : OpenOptions}
      (hwaiting : s.waiting = .connecting env url options) :
      Answers s ⟨false, env, url, options⟩ (s.client.connectFinish env url)
  | connectEx (env : Environment κ) (url : Bytes) (options : OpenOptions) :
      Answers s ⟨true, env, url, options⟩ (s.client.connectEx env url options)

/-- The links that are established were so before, and have received the same. -/
def KeepsLinks (s t : System κ) : Prop :=
  ∃ f : Link κ → Link κ, (∀ l, (f l).fragments = l.fragments ∧ (f l).told = l.told) ∧
    ∀ l' ∈ t.links, l'.phase = .established → ∃ l ∈ s.links, l.phase = .established ∧ f l = l'

variable {s t : System κ}

theorem keepsLinks_of_subset
    (h : ∀ l ∈ t.links, l.phase = .established → l ∈ s.links) : s.KeepsLinks t :=
  ⟨id, fun _ => ⟨rfl, rfl⟩, fun l hl hphase => ⟨l, h l hl hphase, hphase, rfl⟩⟩

theorem waiting_of_isIdle (h : s.isIdle = true) (env : Environment κ) (url : Bytes)
    (options : OpenOptions) : s.waiting ≠ .connecting env url options := by
  grind [isIdle]

variable [DecidableEq κ]

theorem mem_replaceLink {l l' x : Link κ} (h : x ∈ (s.replaceLink l l').links) :
    x = l' ∨ x ∈ s.links ∧ x ≠ l := by
  obtain ⟨y, hy, hx⟩ := List.mem_map.mp h
  grind

/-- What a step can do. -/
inductive Steps (s t : System κ) : Event κ → Prop
  | quiet {e : Event κ} (hclient : s.client.Keeps t.client) (hlinks : s.KeepsLinks t)
      (hreceipts : t.receipts = s.receipts)
      (hwaiting : t.waiting = s.waiting ∨
        ∀ env url options, t.waiting ≠ .connecting env url options)
      (hnone : t.justConnected = none) : Steps s t e
  | begun {env : Environment κ} {url : Bytes} {options : OpenOptions} (hidle : s.isIdle = true)
      (ht : s.waitUnless (s.client.connectStart env options) (.connecting env url options) = t) :
      Steps s t (.connect env url options)
  | ended {e : Event κ} {a : Attempt κ} {answer : Int × Client κ} (hanswer : s.Answers a answer)
      (ht : s.connected a answer = t) : Steps s t e
  | entered {wsi : κ} {l : Link κ} (ht : s.established l = t) : Steps s t (.established wsi)
  | received {wsi : κ} {l : Link κ} {data : Option Bytes} {isFinal : Bool} (hl : l ∈ s.links)
      (hphase : l.phase = .established) (ht : s.receive l data isFinal = t) :
      Steps s t (.receive wsi data isFinal)

theorem steps_setClient {client : Client κ} (h : s.client.Keeps client)
    (e : Event κ) : Steps s (s.setClient client) e :=
  .quiet h (keepsLinks_of_subset fun _ hl _ => hl) rfl (.inl rfl) rfl

/-- A call that waits for the service thread, but not to connect. -/
theorem steps_waitUnless {answer : Option Int × Client κ} (h : s.client.Keeps answer.2)
    {waiting : Waiting κ}
    (hwaiting : ∀ env url options, waiting ≠ .connecting env url options) (e : Event κ) :
    Steps s (s.waitUnless answer waiting) e := by
  unfold waitUnless
  split
  · exact steps_setClient h e
  · exact .quiet h (keepsLinks_of_subset fun _ hl _ => hl) rfl (.inr hwaiting) rfl

theorem steps_answered {l : Link κ} {answer : Int × Client κ}
    (h : s.client.Keeps answer.2) (e : Event κ) : Steps s (s.answered l answer) e := by
  unfold answered
  split
  · refine .quiet h ?_ rfl (.inl rfl) rfl
    refine ⟨fun x => if x = l then { l with doomed := true } else x, fun x => ?_,
      fun x hx hphase => ?_⟩
    · dsimp only
      by_cases hxl : x = l
      · rw [if_pos hxl, hxl]
        exact ⟨rfl, rfl⟩
      · rw [if_neg hxl]
        exact ⟨rfl, rfl⟩
    · obtain ⟨y, hy, rfl⟩ := List.mem_map.mp hx
      refine ⟨y, hy, ?_, rfl⟩
      by_cases hyl : y = l
      · rw [if_pos hyl] at hphase
        rw [hyl]
        exact hphase
      · rwa [if_neg hyl] at hphase
  · exact steps_setClient h e

/-- A connection that comes to its end is no longer established. -/
theorem steps_replaceLink {client : Client κ} (h : s.client.Keeps client)
    (l : Link κ) {l' : Link κ} (hphase : l'.phase ≠ .established) (e : Event κ) :
    Steps s ((s.setClient client).replaceLink l l') e := by
  refine .quiet h (keepsLinks_of_subset fun x hx hx' => ?_) rfl (.inl rfl) rfl
  rcases mem_replaceLink hx with rfl | hold
  · exact absurd hx' hphase
  · exact hold.1

theorem steps_proceed (h : s.proceed = some t) (e : Event κ) : Steps s t e := by
  have hrelease : Steps s s.release e :=
    .quiet s.client.keeps_release (keepsLinks_of_subset fun _ hl _ => hl) rfl
      (.inr fun _ _ _ => nofun) rfl
  unfold proceed at h
  cases hwaiting : s.waiting with
  | idle => simp [hwaiting] at h
  | closing =>
    grind
  | destroying =>
    grind
  | connecting env url options =>
    rw [hwaiting] at h
    obtain ⟨-, hproceed⟩ := ite_none_right_eq_some.mp h
    exact .ended (.connect hwaiting) (Option.some.inj hproceed)

theorem steps_of_step {e : Event κ} (h : s.step e = some t) : Steps s t e := by
  cases e with
  | connect env url options =>
    obtain ⟨hidle, hconnect⟩ := ite_none_right_eq_some.mp h
    exact .begun hidle (Option.some.inj hconnect)
  | connectEx env url options =>
    obtain ⟨-, hconnect⟩ := ite_none_right_eq_some.mp h
    exact .ended (.connectEx env url options) (Option.some.inj hconnect)
  | send data =>
    obtain ⟨-, hsend⟩ := ite_none_right_eq_some.mp h
    cases hsend
    exact steps_setClient (s.client.keeps_send data) _
  | sendEx permission data =>
    obtain ⟨-, hsend⟩ := ite_none_right_eq_some.mp h
    cases hsend
    exact steps_setClient (s.client.keeps_sendEx permission data) _
  | close code reason =>
    obtain ⟨-, hclose⟩ := ite_none_right_eq_some.mp h
    cases hclose
    refine steps_waitUnless (s.client.keeps_closeStart code reason) ?_ _
    exact fun _ _ _ => nofun
  | closeEx permission code reason =>
    obtain ⟨-, hclose⟩ := ite_none_right_eq_some.mp h
    cases hclose
    exact steps_setClient (s.client.keeps_closeEx permission code reason) _
  | destroy =>
    obtain ⟨-, hdestroy⟩ := ite_none_right_eq_some.mp h
    cases hdestroy
    refine steps_waitUnless s.client.keeps_destroyStart ?_ _
    exact fun _ _ _ => nofun
  | proceed => exact steps_proceed h _
  | threadEnd n =>
    obtain ⟨-, hend⟩ := ite_none_right_eq_some.mp h
    cases hend
    exact .quiet ⟨⟨rfl, rfl⟩, ⟨rfl, rfl⟩⟩ (keepsLinks_of_subset fun _ hl _ => hl) rfl (.inl rfl) rfl
  | appendHandshakeHeader wsi takes =>
    obtain ⟨l, -, -, rfl⟩ := withLink_eq_some h
    exact steps_answered (s.client.keeps_lwsCallbackClientAppendHandshakeHeader wsi takes) _
  | connectionError wsi data =>
    obtain ⟨l, -, -, rfl⟩ := withEnding_eq_some h
    exact steps_replaceLink (s.client.keeps_lwsCallbackClientConnectionError data) l
      Phase.noConfusion _
  | filterPreEstablish wsi response statusLine protocol responseHeader =>
    obtain ⟨l, -, -, rfl⟩ := withLink_eq_some h
    exact steps_setClient (s.client.keeps_lwsCallbackClientFilterPreEstablish response statusLine
      protocol responseHeader) _
  | established wsi =>
    obtain ⟨l, -, -, ht⟩ := withLink_eq_some h
    exact .entered ht
  | receive wsi data isFinal =>
    obtain ⟨l, hl, hphase, ht⟩ := withLink_eq_some h
    exact .received hl hphase ht
  | writable wsi =>
    obtain ⟨-, hwritable⟩ := ite_none_right_eq_some.mp h
    obtain ⟨l, -, -, rfl⟩ := withLink_eq_some hwritable
    exact steps_answered ((s.client.keeps_takeWritable wsi).trans
      (Client.keeps_lwsCallbackClientWritable _ wsi)) _
  | wsPeerInitiatedClose wsi payload =>
    obtain ⟨l, -, -, rfl⟩ := withLink_eq_some h
    exact steps_setClient (s.client.keeps_lwsCallbackWsPeerInitiatedClose payload) _
  | closed wsi =>
    obtain ⟨l, -, -, rfl⟩ := withEnding_eq_some h
    exact steps_replaceLink s.client.keeps_lwsCallbackClientClosed l Phase.noConfusion _
  | wsiDestroy wsi =>
    obtain ⟨l, -, -, rfl⟩ := withEnding_eq_some h
    refine .quiet s.client.keeps_lwsCallbackWsiDestroy ?_ rfl (.inl rfl) rfl
    exact keepsLinks_of_subset fun x hx _ => (List.mem_filter.mp hx).1

end System

end Netstack.WebSocketClient
