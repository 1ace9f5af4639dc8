import Tincan.Endpoints
import Tincan.LinkHeap

namespace Tincan.LinkStatus

open Tincan.Library Tincan.Library.Text Tincan.Library.Runs Tincan.Libjingle Tincan.Utils Tincan.Json
open Tincan.ConnectionManager Tincan.StateReport Tincan.ControllerAccess Tincan.Process
open Tincan.LinkChanges Tincan.LinkHeap

def online (m : Manager) (u : Bytes) : Bool :=
  match m.uidMap u with
  | some (some p) => ((m.transports p.transport).map (fun tr => tr.readable && tr.writable)).getD false
  | _ => false

/-- The messages that a step has given to the signal sender. -/
def told (s t : State) : List PeerMessage := (t.calls.drop s.calls.length).map Prod.fst

/-- Those of them that go to a controller at `a`, which has to be the endpoint. -/
def heard (a : SocketAddress) (s t : State) : List PeerMessage :=
  if s.controller.remoteAddr = a then told s t else []

def notice (libs : Libs) (a : SocketAddress) (msg : PeerMessage) : Effect :=
  .packet (.sendTo (if a.family = .inet then .socket else .socket6)
    (kIpopVer :: kTincanControl :: libs.json.toStyledString (peerMessage msg.uid msg.data msg.type)) a)

/-- A controller writes down the last status it was told of each uid. -/
def noted (shown : Bytes → Option Bytes) (msg : PeerMessage) : Bytes → Option Bytes :=
  if msg.overlayId = kLocalControllerId ∧ msg.type = kConStat then
    Function.update shown msg.uid (some msg.data)
  else shown

/-- The transports whose state has changed since it was last reported to `a`. A new
transport owes no report, whatever its address was used for before. -/
def owing (a : SocketAddress) (c : Controller) (due : Ptr → Bool) : Event → Ptr → Bool
  | .linkStatus t _ _ _ _ => Function.update due t true
  | .rwChangeState _ t => if c.remoteAddr = a then Function.update due t false else due
  | _ => fun t => (c.manager.transports t).isSome && due t

/-- The process, with what a controller has written down. -/
structure View where
  process : State
  shown : Bytes → Option Bytes
  due : Ptr → Bool

structure Begins (v : View) : Prop where
  process : Initial v.process
  shown : ∀ u, v.shown u = none
  due : ∀ t, v.due t = false

def View.next (a : SocketAddress) (v : View) (e : Event) (t : State) : View where
  process := t
  shown u :=
    if t.controller.manager.uidMap u = none then none else (heard a v.process t).foldl noted v.shown u
  due := owing a v.process.controller v.due e

/-- Other nodes send no messages of the type that tells the status of a link. -/
structure Watched (libs : Libs) (a : SocketAddress) (v : View) (e : Event) (w : View) : Prop where
  step : Guarded (NewObjects libs) (Steps (step libs)) v.process e w.process
  running : w.process.crashed = false
  genuine : ∀ env, e = .processStart env → ∀ msg ∈ told v.process w.process, msg.type ≠ kConStat
  next : w = v.next a e w.process

/-- Each link was there before, with the same transport in the same state, or it
is new and not online. -/
def Steady (m m' : Manager) : Prop :=
  ∀ u p', m'.uidMap u = some (some p') →
    (∃ p, m.uidMap u = some (some p) ∧ p.transport = p'.transport ∧ online m' u = online m u) ∨
      m.uidMap u = none ∧ online m' u = false

section

variable {m m' m'' : Manager} {u : Bytes} {p p' : PeerState} {tr : Transport}

theorem online_eq (hp : m.uidMap u = some (some p)) :
    online m u = ((m.transports p.transport).map (fun tr => tr.readable && tr.writable)).getD false := by
  rw [online, hp]

theorem online_of (hp : m.uidMap u = some (some p)) (htr : m.transports p.transport = some tr) :
    online m u = (tr.readable && tr.writable) := by
  rw [online_eq hp, htr]
  rfl

theorem steady_same (hu : m'.uidMap = m.uidMap) (ht : m'.transports = m.transports) : Steady m m' := by
  intro u p' hp
  refine .inl ⟨p', hu ▸ hp, rfl, ?_⟩
  rw [online, online, hu, ht]

theorem Steady.trans (h : Steady m m') (h' : Steady m' m'')
    (hold : ∀ u, m'.uidMap u = none → m''.uidMap u = none) : Steady m m'' := by
  intro u p' hp
  obtain ⟨q, hq, hqt, hqo⟩ | ⟨hnone, _⟩ := h' u p' hp
  · obtain ⟨r, hr, hrt, hro⟩ | ⟨hnone, hoff⟩ := h u q hq
    · exact .inl ⟨r, hr, hrt.trans hqt, hqo.trans hro⟩
    · exact .inr ⟨hnone, hqo.trans hoff⟩
  · rw [hold u hnone] at hp
    cases hp

theorem steady_change (p' : PeerState) (hp : m.uidMap u = some (some p)) (hu : m'.uidMap = m.uidMap.insert u (some p'))
    (hp' : p'.transport = p.transport)
    (ht : ∀ t, (m'.transports t).map (fun tr => tr.readable && tr.writable) =
      (m.transports t).map (fun tr => tr.readable && tr.writable)) : Steady m m' := by
  intro v q hq
  have hnew := hq
  rw [hu] at hnew
  obtain ⟨rfl, he⟩ | ⟨_, hold⟩ := PartialMap.insert_eq_some.mp hnew
  · cases he
    exact .inl ⟨p, hp, hp'.symm, by rw [online_eq hq, online_eq hp, ht, hp']⟩
  · exact .inl ⟨q, hold, rfl, by rw [online_eq hq, online_eq hold, ht]⟩

theorem steady_give {libs : Libs} {uid cas : Bytes} (h : giveCandidates libs m uid cas = some m') :
    Steady m m' ∧ ∀ u, m.uidMap u = none → m'.uidMap u = none := by
  obtain rfl | ⟨p, tr, candidates, hp, _, htr, rfl⟩ := giveCandidates_cases h
  · exact ⟨steady_same rfl rfl, fun _ hn => hn⟩
  constructor
  · refine steady_change _ hp rfl rfl fun t => ?_
    by_cases he : t = p.transport
    · subst he
      simp [htr]
    · simp [he]
  · intro v hn
    have hne : v ≠ uid := by
      rintro rfl
      rw [hp] at hn
      cases hn
    simpa [hne] using hn

theorem createTransport_offline {L : Libjingle.Api} {r : CreateRequest} {f : Fresh} (hr : r.refused m = false) :
    ((createTransport L m r f).1.transports f.transport).map (fun tr => tr.readable && tr.writable) =
      some false := by
  obtain ⟨_, _, _, _, _, htr⟩ := LinkThreads.setupTransport_eq L m (newPeer L m r f) (newTransport m r f)
  have hreadable : (setupTransport L m (newPeer L m r f) (newTransport m r f)).2.readable = false := by
    rw [htr]
    rfl
  rw [LinkThreads.createTransport_eq hr]
  simp [insertTransportMapW, buildTransport, hreadable]

theorem steady_create {L : Libjingle.Api} {r : CreateRequest} {f : Fresh} (h : Tidy m)
    (hf : r.refused m = false → LinkThreads.Available m f) : Steady m (createTransport L m r f).1 := by
  obtain ⟨_, hm⟩ | ⟨hr, tr, hm⟩ := createTransport_cases L m r f
  · rw [hm]
    exact steady_same rfl rfl
  have hnone : m.uidMap r.uid = none := by
    simp only [CreateRequest.refused, Bool.or_eq_false_iff] at hr
    exact Option.not_isSome_iff_eq_none.mp (by simp [hr.1])
  have hoffline := createTransport_offline (L := L) (f := f) hr
  rw [hm] at hoffline ⊢
  have htransport := (LinkThreads.buildTransport_fields L m r f).2
  intro u p' hp
  have hnew := hp
  obtain ⟨rfl, he⟩ | ⟨hne, hold⟩ := PartialMap.insert_eq_some.mp hnew
  · cases he
    refine .inr ⟨hnone, ?_⟩
    rw [online_eq hp, htransport, hoffline]
    rfl
  · refine .inl ⟨p', hold, rfl, ?_⟩
    have hother := h.transport_ne (hf hr) hold
    rw [online_eq hp, online_eq hold]
    dsimp only
    rw [PartialMap.insert_of_ne _ _ hother]

theorem steady_destroy {uid : Bytes} {done : Bool} {log : List Log} (h : Tidy m)
    (hd : destroyTransport m uid = some (m', done, log)) : Steady m m' := by
  obtain ⟨_, rfl⟩ | ⟨p, hp, rfl⟩ := destroyTransport_cases hd
  · exact steady_same rfl rfl
  intro u q hq
  obtain ⟨hne, hold⟩ := PartialMap.erase_eq_some.mp hq
  refine .inl ⟨q, hold, rfl, ?_⟩
  have hother : q.transport ≠ p.transport := fun he => hne (h.linked.apart u uid q p hold hp he)
  rw [online_eq hq, online_eq hold]
  simp [releasePeer, hother]

theorem steady_update {libs : Libs} {env : Env} {c c' : Controller} {d : Datagram} (h : Tidy c.manager)
    (hnew : ∀ r, linkRequest libs c d = some r → r.refused c.manager = false →
      LinkThreads.Available c.manager env.fresh)
    (hu : Update libs env c d c') : Steady c.manager c'.manager := by
  obtain ⟨hs, ht⟩ | ⟨r, cas, hr, hm⟩ | ⟨uid, done, log, hd⟩ := heap_of_update hu
  · exact steady_same hs.uidMap ht
  · obtain ⟨hgive, hold⟩ := steady_give hm
    exact (steady_create h (hnew r hr)).trans hgive hold
  · exact steady_destroy h hd

end

section

variable {libs : Libs} {a : SocketAddress} {s t : State} {e : Event}

theorem calls_signals (libs : Libs) (env : Env) (s : State) (msgs : List PeerMessage) :
    ∃ new, (msgs.foldl (signal libs env) s).calls = s.calls ++ new ∧ new.map Prod.fst = msgs := by
  induction msgs generalizing s with
  | nil => exact ⟨[], by simp, rfl⟩
  | cons msg msgs ih =>
    obtain ⟨new, hnew, hmsgs⟩ := ih (signal libs env s msg)
    have hone : (signal libs env s msg).calls =
        s.calls ++ [(msg, (s.services.index msg.overlayId none).1)] := by
      unfold signal
      dsimp only
      split <;> rfl
    exact ⟨_ :: new, by rw [List.foldl_cons, hnew, hone, List.append_assoc]; rfl, by simp [hmsgs]⟩

theorem told_of_step (h : step libs s e = some t) :
    ∃ taken, ControllerStep libs s.controller e t.controller taken (told s t) := by
  obtain ⟨env, c, taken, sent, msgs, fault, hc, rfl⟩ := step_cases h
  obtain ⟨new, hnew, hmsgs⟩ := calls_signals libs env
    { s with controller := c, accepted := s.accepted ++ taken, sent := s.sent ++ sent } msgs
  have htold : told s (conclude libs env s c taken sent msgs fault) = msgs := by
    rw [told, conclude, hnew, List.drop_left, hmsgs]
  have hcontroller : (conclude libs env s c taken sent msgs fault).controller = c :=
    (signals_frame libs env _ msgs).1
  rw [htold, hcontroller]
  exact ⟨taken, hc⟩

theorem noted_of_type {msgs : List PeerMessage} (h : ∀ msg ∈ msgs, msg.type ≠ kConStat)
    (shown : Bytes → Option Bytes) : msgs.foldl noted shown = shown := by
  induction msgs with
  | nil => rfl
  | cons msg msgs ih =>
    have hone : noted shown msg = shown := if_neg fun hc => h msg (List.mem_cons_self ..) hc.2
    rw [List.foldl_cons, hone]
    exact ih fun msg' hmem => h msg' (List.mem_cons_of_mem _ hmem)

def fault (libs : Libs) (m : Manager) : Event → Bool
  | .candidatesReady t candidates => (onCandidatesReady libs.jingle m t candidates).fault
  | .candidatesAllocationDone _ t => (onCandidatesAllocationDone m t).fault
  | .rwChangeState _ t => (onRWChangeState m t).fault
  | _ => false

theorem fault_step (h : step libs s e = some t) (hrun : t.crashed = false) :
    fault libs s.controller.manager e = false := by
  have hs := running_of_step h
  cases e with
  | candidatesReady x candidates =>
    simp only [step, hs, Bool.false_eq_true, ↓reduceIte, Option.some.injEq] at h
    subst h
    exact hrun
  | candidatesAllocationDone env x | rwChangeState env x =>
    simp only [step, hs, Bool.false_eq_true, ↓reduceIte, Option.some.injEq] at h
    subst h
    exact (absorb_frame libs env s _).2 hrun
  | _ => rfl

theorem conResp_type (m : Manager) (t : Ptr) :
    ∀ msg ∈ (onCandidatesAllocationDone m t).sent, msg.type = kConResp := by
  unfold onCandidatesAllocationDone
  dsimp only
  split
  · simp
  · split <;> simp

/-- What the controller has written down is true of every link with no report due. -/
structure Agrees (v : View) : Prop where
  linked : ∀ u p, v.process.controller.manager.uidMap u = some (some p) → v.due p.transport = false →
    (v.shown u = some (bytes "online") ↔ online v.process.controller.manager u = true)
  unlinked : ∀ u, v.process.controller.manager.uidMap u = none → v.shown u = none

/-- The two kinds of event about the state of a transport apart, what a link was
shown as stays, and nothing that the process tells is about the state of a link. -/
theorem steady_step (h : Tidy s.controller.manager)
    (hst : Guarded (NewObjects libs) (Steps (step libs)) s e t) (hrun : t.crashed = false)
    (hgenuine : ∀ env, e = .processStart env → ∀ msg ∈ told s t, msg.type ≠ kConStat)
    (hstatus : ∀ x a b c d, e ≠ .linkStatus x a b c d) (hrw : ∀ env x, e ≠ .rwChangeState env x) :
    Steady s.controller.manager t.controller.manager ∧ ∀ msg ∈ told s t, msg.type ≠ kConStat := by
  obtain ⟨hnew, hst⟩ := hst
  have hfault := fault_step hst hrun
  obtain ⟨taken, hc⟩ := told_of_step hst
  generalize told s t = msgs at hc hgenuine
  generalize t.controller = c' at hc
  cases hc with
  | datagram hd => exact ⟨steady_update h hnew (update_handlePacket hd), by simp⟩
  | candidatesReady x candidates =>
    refine ⟨?_, by simp⟩
    obtain ⟨hlost, _⟩ | ⟨p, hp, _, hm⟩ :=
      onCandidatesReady_cases libs.jingle s.controller.manager x candidates
    · rw [fault, hlost] at hfault
      cases hfault
    · rw [hm]
      exact steady_change (withReported libs.jingle s.controller.manager p candidates) hp rfl rfl
        fun _ => rfl
  | candidatesAllocationDone env x =>
    constructor
    · rw [fault, onCandidatesAllocationDone_fault] at hfault
      rw [onCandidatesAllocationDone_manager]
      exact steady_same (uidMap_of_found hfault) rfl
    · intro msg hmsg
      rw [conResp_type _ x msg hmsg]
      decide
  | rwChangeState env x => exact absurd rfl (hrw env x)
  | linkStatus a b c d ht => exact absurd rfl (hstatus _ a b c d)
  | processStart hp => exact ⟨steady_same rfl rfl, hgenuine _ rfl⟩
  | queueSignal hq =>
    obtain ⟨_, _, _, rfl⟩ := handleQueueSignal_eq_some hq
    exact ⟨steady_same rfl rfl, by simp⟩
  | readPacket hr =>
    rw [PacketPath.onReadPacket_manager _ hr]
    exact ⟨steady_same rfl rfl, by simp⟩
  | tapRecv hr =>
    obtain ⟨_, _, _, rfl, _⟩ := doPacketRecv_eq_some hr
    exact ⟨steady_same rfl rfl, by simp⟩
  | same | stateChange | timer | stanza | tapSend => exact ⟨steady_same rfl rfl, by simp⟩

theorem onRWChangeState_of_live {m : Manager} {x : Ptr} (h : Tidy m)
    (hf : (onRWChangeState m x).fault = false) : ∃ u p tr, m.uidMap u = some (some p) ∧ p.transport = x ∧
      m.transports x = some tr ∧ (onRWChangeState m x).manager = m ∧
      (onRWChangeState m x).sent = [⟨kLocalControllerId, u,
        if tr.readable ∧ tr.writable then bytes "online" else
          if tr.wasWritable then bytes "offline" else bytes "unknown", kConStat⟩] := by
  have hlive : m.transports x ≠ none := by
    intro hnone
    simp [onRWChangeState, hnone] at hf
  obtain ⟨tr, htr⟩ := Option.ne_none_iff_exists'.mp hlive
  obtain ⟨u, p, hp, rfl⟩ := h.used x tr htr
  have ht := h.known u p hp
  refine ⟨u, p, tr, hp, rfl, htr, ?_, ?_⟩ <;>
    simp only [onRWChangeState, PartialMap.index_of_mem [] ht, htr, PartialMap.index_of_mem none hp] <;>
    split_ifs <;> rfl

theorem told_rwChangeState {env : Env} {x : Ptr} (h : step libs s (.rwChangeState env x) = some t) :
    told s t = (onRWChangeState s.controller.manager x).sent ∧
      t.controller.manager = (onRWChangeState s.controller.manager x).manager := by
  simp only [step, running_of_step h, Bool.false_eq_true, ↓reduceIte, Option.some.injEq] at h
  subst h
  refine ⟨?_, (absorb_frame libs env s _).1⟩
  obtain ⟨new, hnew, hmsgs⟩ := calls_signals libs env
    { s with controller := { s.controller with manager := (onRWChangeState s.controller.manager x).manager } }
    (onRWChangeState s.controller.manager x).sent
  rw [told, absorb, hnew, List.drop_left, hmsgs]

theorem sendToPeer_eq (libs : Libs) (env : Env) {c : Controller} (msg : PeerMessage)
    (h : c.remoteAddr.family ≠ .unspec) :
    sendToPeer libs env c msg.uid msg.data msg.type = [notice libs c.remoteAddr msg] := by
  unfold sendToPeer sendTo notice
  cases hf : c.remoteAddr.family with
  | unspec => exact absurd hf h
  | inet | inet6 => simp [frame_eq]

theorem sent_signal_controller (libs : Libs) (env : Env) {msg : PeerMessage}
    (hservice : s.services kLocalControllerId = some (some .controller))
    (hid : msg.overlayId = kLocalControllerId) (hf : s.controller.remoteAddr.family ≠ .unspec) :
    (signal libs env s msg).sent = s.sent ++ [notice libs s.controller.remoteAddr msg] := by
  have hindex := PartialMap.index_of_mem none hservice
  simp only [signal, hid, hindex, sendToPeer_eq libs env msg hf]

theorem sent_onRWChangeState (m : Manager) (x : Ptr) : (onRWChangeState m x).sent = [] ∨
    ∃ uid status, (onRWChangeState m x).sent = [⟨kLocalControllerId, uid, status, kConStat⟩] := by
  unfold onRWChangeState
  dsimp only
  split
  · exact .inl rfl
  · split_ifs <;> exact .inr ⟨_, _, rfl⟩

/-- A report leaves at once, for the endpoint there is. -/
theorem sent_rwChangeState {env : Env} {x : Ptr} (h : step libs s (.rwChangeState env x) = some t)
    (hservice : s.services kLocalControllerId = some (some .controller))
    (hf : s.controller.remoteAddr.family ≠ .unspec) :
    t.sent = s.sent ++ (told s t).map (notice libs s.controller.remoteAddr) := by
  rw [(told_rwChangeState h).1]
  simp only [step, running_of_step h, Bool.false_eq_true, ↓reduceIte, Option.some.injEq] at h
  subst h
  rw [absorb]
  obtain hnone | ⟨uid, status, hone⟩ := sent_onRWChangeState s.controller.manager x
  · rw [hnone, List.map_nil, List.append_nil]
    rfl
  · rw [hone, List.foldl_cons, List.foldl_nil, List.map_singleton]
    exact sent_signal_controller libs env hservice rfl hf

theorem Watched.shown {v w : View} (h : Watched libs a v e w) (u : Bytes) :
    w.shown u = if w.process.controller.manager.uidMap u = none then none
      else (heard a v.process w.process).foldl noted v.shown u := by
  rw [h.next]
  rfl

theorem Watched.due {v w : View} (h : Watched libs a v e w) :
    w.due = owing a v.process.controller v.due e := by
  rw [h.next]
  rfl

theorem heard_subset (a : SocketAddress) (s t : State) : heard a s t ⊆ told s t := by
  unfold heard
  split
  · exact List.Subset.refl _
  · exact List.nil_subset _

theorem agrees_linkStatus {v w : View} {x : Ptr} {b₁ b₂ b₃ b₄ : Bool} (hv : Agrees v)
    (hst : Watched libs a v (.linkStatus x b₁ b₂ b₃ b₄) w) : Agrees w := by
  have hsame : w.process.controller.manager.uidMap = v.process.controller.manager.uidMap ∧
      (∀ y ≠ x, w.process.controller.manager.transports y = v.process.controller.manager.transports y) ∧
      told v.process w.process = [] := by
    obtain ⟨taken, hc⟩ := told_of_step hst.step.2
    generalize told v.process w.process = msgs at hc
    generalize w.process.controller = c' at hc
    cases hc with
    | same => exact ⟨rfl, fun _ _ => rfl, rfl⟩
    | linkStatus _ _ _ _ ht => exact ⟨rfl, fun y hy => PartialMap.insert_of_ne _ _ hy, rfl⟩
  obtain ⟨hu, ht, htold⟩ := hsame
  have hheard : heard a v.process w.process = [] := by simp [heard, htold]
  constructor
  · intro u p hp hdue
    have hold := hu ▸ hp
    rw [hst.due, owing] at hdue
    have hne : p.transport ≠ x := by
      rintro rfl
      rw [Function.update_self] at hdue
      cases hdue
    rw [Function.update_of_ne hne] at hdue
    rw [hst.shown, hheard, if_neg (by simp [hp]), online_eq hp, ht _ hne, ← online_eq hold]
    exact hv.linked u p hold hdue
  · intro u hnone
    rw [hst.shown, if_pos hnone]

theorem status_online (readable writable wasWritable : Bool) :
    (if readable ∧ writable then bytes "online" else
      if wasWritable then bytes "offline" else bytes "unknown") = bytes "online" ↔
      (readable && writable) = true := by
  cases readable <;> cases writable <;> cases wasWritable <;> decide

theorem agrees_rwChangeState {v w : View} {env : Env} {x : Ptr} (h : Tidy v.process.controller.manager)
    (hv : Agrees v) (hst : Watched libs a v (.rwChangeState env x) w) : Agrees w := by
  obtain ⟨u, p, tr, hp, rfl, htr, hm, hsent⟩ :=
    onRWChangeState_of_live h (fault_step hst.step.2 hst.running)
  obtain ⟨htold, hmanager⟩ := told_rwChangeState hst.step.2
  rw [hsent] at htold
  rw [hm] at hmanager
  constructor
  · intro u' q hq hdue
    rw [hst.shown, if_neg (by simp [hq]), heard, htold]
    rw [hst.due, owing] at hdue
    rw [hmanager] at hq ⊢
    by_cases ha : v.process.controller.remoteAddr = a
    · rw [if_pos ha] at hdue
      rw [if_pos ha, List.foldl_cons, List.foldl_nil, noted, if_pos ⟨rfl, rfl⟩]
      by_cases hu : u' = u
      · subst hu
        rw [Function.update_self, online_of hp htr, Option.some.injEq]
        exact status_online tr.readable tr.writable tr.wasWritable
      · have hother : q.transport ≠ p.transport := fun he => hu (h.linked.apart u' u q p hq hp he)
        rw [Function.update_of_ne hother] at hdue
        rw [Function.update_of_ne hu]
        exact hv.linked u' q hq hdue
    · -- The report goes to another address, and it stays due.
      rw [if_neg ha] at hdue
      rw [if_neg ha, List.foldl_nil]
      exact hv.linked u' q hq hdue
  · intro u' hnone
    rw [hst.shown, if_pos hnone]

theorem agrees_step {v w : View} (h : Tidy v.process.controller.manager) (hv : Agrees v)
    (hst : Watched libs a v e w) : Agrees w := by
  by_cases hstatus : ∃ x b₁ b₂ b₃ b₄, e = .linkStatus x b₁ b₂ b₃ b₄
  · obtain ⟨x, b₁, b₂, b₃, b₄, rfl⟩ := hstatus
    exact agrees_linkStatus hv hst
  by_cases hrw : ∃ env x, e = .rwChangeState env x
  · obtain ⟨env, x, rfl⟩ := hrw
    exact agrees_rwChangeState h hv hst
  simp only [not_exists] at hstatus hrw
  obtain ⟨hsteady, hquiet⟩ := steady_step h hst.step hst.running hst.genuine hstatus hrw
  constructor
  · intro u p' hp' hdue
    rw [hst.shown, if_neg (by simp [hp']),
      noted_of_type fun msg hmsg => hquiet msg (heard_subset _ _ _ hmsg)]
    obtain ⟨p, hp, ht, honline⟩ | ⟨hnone, hoff⟩ := hsteady u p' hp'
    · have howed : w.due p'.transport = v.due p'.transport := by
        have hlive : (v.process.controller.manager.transports p.transport).isSome := h.live.transport hp
        rw [hst.due, ← ht]
        cases e with
        | linkStatus x b₁ b₂ b₃ b₄ => exact absurd rfl (hstatus x b₁ b₂ b₃ b₄)
        | rwChangeState env x => exact absurd rfl (hrw env x)
        | _ => simp only [owing, hlive, Bool.true_and]
      rw [honline]
      exact hv.linked u p hp (by rw [ht, ← howed, hdue])
    · rw [hv.unlinked u hnone, hoff]
      decide
  · intro u hnone
    rw [hst.shown, if_pos hnone]

theorem service_of_reachable {v : View} (h : Reachable (Watched libs a) Begins v) :
    v.process.services kLocalControllerId = some (some .controller) := by
  refine reachable_invariant
    (P := fun v => v.process.services kLocalControllerId = some (some .controller)) ?_ ?_ h
  · intro v hv
    obtain ⟨_, _, _, _, _, _, _, hs⟩ := hv.process
    rw [hs]
    rfl
  · intro v e w hv hst
    exact services_step hst.step.2 hv

theorem agrees_of_reachable {v : View} (h : Reachable (Watched libs a) Begins v) :
    Agrees v ∧ Tidy v.process.controller.manager := by
  refine reachable_invariant (P := fun v => Agrees v ∧ Tidy v.process.controller.manager) ?_ ?_ h
  · intro v hv
    have htidy := tidy_initial hv.process
    refine ⟨⟨fun u p hp => ?_, fun u _ => hv.shown u⟩, htidy⟩
    obtain ⟨_, _, _, _, _, _, _, hs⟩ := hv.process
    rw [hs] at hp
    cases hp
  · rintro v e w ⟨hv, htidy⟩ hst
    exact ⟨agrees_step htidy hv hst, tidy_step htidy hst.step hst.running⟩

end

section

variable {stats : Ptr → List ConnectionInfo} {now xmppTime : Fin (2 ^ 32)} {m : Manager} {u : Bytes}
  {getStats : Bool} {fields : List (Bytes × Value)}

theorem lookup_set_self (members : List (Bytes × Value)) (key : Bytes) (value : Value) :
    (Json.set members key value).lookup key = some value := by
  unfold Json.set
  split
  · next hmem =>
    induction members with
    | nil => cases hmem
    | cons m members ih =>
      rw [List.map_cons, List.lookup_cons]
      by_cases hm : m.1 = key
      · simp [hm]
      · have hne : (key == m.1) = false := by simpa using Ne.symm hm
        rw [if_neg hm, hne]
        refine ih ?_
        obtain he | hrest := List.mem_cons.mp hmem
        · exact absurd he.symm hm
        · exact hrest
  · next hmem =>
    rw [List.lookup_append]
    have hnone : members.lookup key = none := by
      rw [List.lookup_eq_none_iff]
      intro m hm
      rw [bne_iff_ne]
      rintro rfl
      exact hmem (List.mem_map_of_mem hm)
    simp [hnone]

theorem lookup_status (h : stateToJson stats now m u xmppTime getStats = some fields) :
    fields.lookup (bytes "status") =
      some (.string (if online m u then bytes "online" else bytes "offline")) := by
  unfold stateToJson at h
  extract_lets base first at h
  have hfirst : first.lookup (bytes "status") = some (.string (bytes "offline")) := by
    unfold first
    split
    · rw [lookup_set_of_ne _ (by decide), lookup_set_of_ne _ (by decide)]
      rfl
    · rfl
  split at h
  · next hu =>
    rw [← Option.some.inj h, hfirst, online, hu]
    rfl
  · cases h
  · next p hp =>
    extract_lets withFpr peer at h
    have hpeer : peer.lookup (bytes "status") = some (.string (bytes "offline")) := by
      unfold peer withFpr
      rw [lookup_set_of_ne _ (by decide), lookup_set_of_ne _ (by decide), hfirst]
    split at h
    · cases h
    · next tr htr =>
      rw [online_of hp htr]
      split at h
      · next record labelled _ hrw =>
        have hlabelled : labelled.lookup (bytes "status") = some (.string (bytes "online")) := by
          unfold labelled record
          rw [lookup_set_of_ne _ (by decide), lookup_set_self]
        have honline : (tr.readable && tr.writable) = true := by simpa using hrw
        rw [honline, if_pos rfl]
        split at h
        · rw [Option.map_eq_some_iff] at h
          obtain ⟨channel, _, rfl⟩ := h
          rw [lookup_set_of_ne _ (by decide), hlabelled]
        · rw [← Option.some.inj h, hlabelled]
      · next hrw =>
        have hoffline : (tr.readable && tr.writable) = false := by simpa using hrw
        rw [← Option.some.inj h, hpeer, hoffline]
        rfl

end

/-- A controller that keeps the last notification about each uid, and strikes out
the links that it has had removed, sees the same as one that asks: whenever no
change of the link's transport is still to be reported to it, the record of
`get_state` shows the link online just if the last notification did. The
notifications are the datagrams to the endpoint of the time. -/
theorem notices_agree_with_state {libs : Libs} {a : SocketAddress} {v : View}
    (h : Reachable (Watched libs a) Begins v) :
    (∀ u, (∀ p, v.process.controller.manager.uidMap u = some (some p) → v.due p.transport = false) →
      ∀ stats now xmppTime getStats fields,
        stateToJson stats now v.process.controller.manager u xmppTime getStats = some fields →
        fields.lookup (bytes "status") = some (.string
          (if v.shown u = some (bytes "online") then bytes "online" else bytes "offline"))) ∧
    ∀ env x w, Watched libs a v (.rwChangeState env x) w →
      v.process.controller.remoteAddr.family ≠ .unspec → w.process.sent = v.process.sent ++
        (told v.process w.process).map (notice libs v.process.controller.remoteAddr) := by
  constructor
  · intro u hdue stats now xmppTime getStats fields hq
    obtain ⟨hv, htidy⟩ := agrees_of_reachable h
    have hiff : v.shown u = some (bytes "online") ↔ online v.process.controller.manager u = true := by
      cases hu : v.process.controller.manager.uidMap u with
      | none =>
        rw [hv.unlinked u hu]
        simp [online, hu]
      | some q =>
        obtain ⟨p, tr, rfl, _⟩ := htidy.linked.owned u q hu
        exact hv.linked u p hu (hdue p hu)
    rw [lookup_status hq]
    simp only [hiff]
  · intro env x w hst hf
    exact sent_rwChangeState hst.step.2 (service_of_reachable h) hf

theorem reachable_next {libs : Libs} {a : SocketAddress} {v : View} {e : Event} {t : State}
    (h : Reachable (Watched libs a) Begins v) (hst : step libs v.process e = some t)
    (hnew : NewObjects libs v.process e) (hrun : t.crashed = false) (he : ∀ env, e ≠ .processStart env) :
    Reachable (Watched libs a) Begins (v.next a e t) :=
  reachable_step h ⟨⟨hnew, hst⟩, hrun, fun env heq => absurd heq (he env), rfl⟩

def blankView : View := ⟨startState, fun _ => none, fun _ => false⟩

def watchLibs : Libs := sampleLibs [(linkText [49], linkValue 1),
  (Endpoints.endpointText (bytes "::"), Endpoints.endpointValue (bytes "::"))]

def watchRequest : Datagram := Endpoints.endpointDatagram (bytes "::")

/-- A controller has itself made the endpoint. A link comes up and is reported. -/
theorem notices_agree_with_state_online : ∃ (v : View) (fields : List (Bytes × Value)),
    stateToJson (fun _ => []) 0 v.process.controller.manager (bytes "b") 0 false = some fields ∧
      fields.lookup (bytes "status") = some (.string (bytes "online")) ∧
      fields.lookup (bytes "status") = some (.string
        (if v.shown (bytes "b") = some (bytes "online") then bytes "online" else bytes "offline")) ∧
      ∃ datagram, v.process.sent = [.packet (.sendTo .socket datagram watchRequest.addr)] := by
  obtain ⟨q, s, t, r, fields, datagram, hq, hs, ht, hr, hfields, hstatus, hrun, hendpoint, hsent⟩ :
      ∃ q s t r fields datagram,
      step watchLibs startState (.datagram sampleEnv watchRequest) = some q ∧
      step watchLibs q (.datagram sampleEnv (linkDatagram 49)) = some s ∧
      step watchLibs s (.linkStatus 1 true true true true) = some t ∧
      step watchLibs t (.rwChangeState sampleEnv 1) = some r ∧
      stateToJson (fun _ => []) 0 r.controller.manager (bytes "b") 0 false = some fields ∧
      fields.lookup (bytes "status") = some (.string (bytes "online")) ∧ r.crashed = false ∧
      t.controller.remoteAddr = watchRequest.addr ∧
      r.sent = [.packet (.sendTo .socket datagram watchRequest.addr)] :=
    ⟨_, _, _, _, _, _, rfl, rfl, rfl, rfl, rfl, rfl, rfl, rfl, rfl⟩
  have hinit : Begins blankView := ⟨startState_initial, fun _ => rfl, fun _ => rfl⟩
  have hnoLink : NewObjects watchLibs startState (.datagram sampleEnv watchRequest) :=
    fun _ _ _ => ⟨by decide, rfl, rfl⟩
  have hnew : NewObjects watchLibs q (.datagram sampleEnv (linkDatagram 49)) := by
    cases hq
    exact fun _ _ _ => ⟨by decide, rfl, rfl⟩
  have h₀ := reachable_next (a := watchRequest.addr) (reachable_init hinit) hq hnoLink (running_of_step hs)
    (by simp)
  have h₁ := reachable_next h₀ hs hnew (running_of_step ht) (by simp)
  have h₂ := reachable_next h₁ ht trivial (running_of_step hr) (by simp)
  have h₃ := reachable_next h₂ hr trivial hrun (by simp)
  refine ⟨_, fields, hfields, hstatus, (notices_agree_with_state h₃).1 _ ?_ _ _ _ _ _ hfields,
    datagram, hsent⟩
  intro p _
  by_cases hp : p.transport = 1 <;> simp [View.next, owing, blankView, hp, hendpoint]

end Tincan.LinkStatus
