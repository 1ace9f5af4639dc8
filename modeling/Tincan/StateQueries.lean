import Tincan.Signalling

namespace Tincan.StateQueries

open Tincan.Library Tincan.Library.Text Tincan.Library.Runs Tincan.Libjingle Tincan.Json
open Tincan.ConnectionManager Tincan.StateReport Tincan.XmppNetwork Tincan.ControllerAccess
open Tincan.Process Tincan.Signalling
open Tincan.Routes (uidA uidB)

/-- The peers that a query is about, each with the time of its last presence.
The form with a uid takes the time of the query for it. -/
def asked (env : Env) (s : Controller) (uid : Bytes) : List (Bytes × Fin (2 ^ 32)) :=
  if uid ≠ [] then [(uid, env.fresh.now)] else friends s.network

def peerState (peer : List (Bytes × Value)) : List (Bytes × Value) :=
  set peer (bytes "type") (.string (bytes "peer_state"))

def records (env : Env) (s : Controller) (uid : Bytes) (getStats : Bool) :
    Option (List (List (Bytes × Value))) :=
  (getState env.stats env.fresh.now s.manager (asked env s uid) getStats).map (List.map peerState)

def About (uid : Bytes) (record : List (Bytes × Value)) : Prop :=
  record.lookup (bytes "uid") = some (.string uid)

def visited (m : Manager) (uid : Bytes) : Manager :=
  let m := if (m.ipMap uid).isSome then { m with ipMap := (m.ipMap.index uid ⟨[], []⟩).2 } else m
  if (m.uidMap uid).isSome then { m with uidMap := (m.uidMap.index uid none).2 } else m

def visitedAll (m : Manager) (asked : List (Bytes × Fin (2 ^ 32))) : Manager :=
  asked.foldl (fun m q => visited m q.1) m

/-- What `SendState` sends: the state of the node, and these records. -/
theorem sendState_eq (libs : Libs) (env : Env) (s : Controller) (uid : Bytes) (getStats : Bool)
    (addr : SocketAddress) :
    sendState libs env s uid getStats addr = (records env s uid getStats).map (fun peers =>
      sendTo env (libs.json.toStyledString (localState s)) addr ++
        peers.flatMap (fun peer => sendTo env (libs.json.toStyledString (.object peer)) addr)) := by
  unfold records
  rw [Option.map_map]
  refine congrArg (fun f => Option.map f _) ?_
  funext peers
  rw [Function.comp_apply, List.flatMap_map]
  rfl

theorem visited_eq (m : Manager) (uid : Bytes) : visited m uid = m := by
  have hip : (if (m.ipMap uid).isSome then { m with ipMap := (m.ipMap.index uid ⟨[], []⟩).2 } else m) = m := by
    split
    · next h =>
      obtain ⟨ips, hips⟩ := Option.isSome_iff_exists.mp h
      rw [PartialMap.index_of_mem _ hips]
    · rfl
  unfold visited
  rw [hip]
  dsimp only
  split
  · next h =>
    obtain ⟨p, hp⟩ := Option.isSome_iff_exists.mp h
    rw [PartialMap.index_of_mem _ hp]
  · rfl

theorem visitedAll_eq (m : Manager) (asked : List (Bytes × Fin (2 ^ 32))) : visitedAll m asked = m := by
  unfold visitedAll
  induction asked with
  | nil => rfl
  | cons q asked ih => rw [List.foldl_cons, visited_eq, ih]

theorem mem_friends {n : Network} {uid : Bytes} {t : Fin (2 ^ 32)} :
    (uid, t) ∈ friends n ↔ n.presenceTime.lookup uid = some t := by
  simp only [friends, List.mem_filterMap, mem_inOrder, Option.map_eq_some_iff, Prod.mk.injEq]
  constructor
  · rintro ⟨_, _, _, ht, rfl, rfl⟩
    exact ht
  · intro ht
    exact ⟨uid, Finmap.mem_keys.mpr (Finmap.mem_of_lookup_eq_some ht), t, ht, rfl, rfl⟩

section

variable {env : Env} {s : Controller} {u uid : Bytes} {t x y : Fin (2 ^ 32)} {getStats : Bool}

section

variable {stats : Ptr → List ConnectionInfo} {now : Fin (2 ^ 32)} {m : Manager}
  {peer peer' : List (Bytes × Value)}

theorem about_iff (h : stateToJson stats now m uid x getStats = some peer) :
    About u (peerState peer) ↔ uid = u := by
  unfold About peerState
  rw [lookup_set_of_ne _ (by decide), lookup_stateToJson (by decide) h, List.lookup_cons_self,
    Option.some.injEq, Value.string.injEq]

theorem peerState_eq_iff (h : stateToJson stats now m uid x getStats = some peer)
    (h' : stateToJson stats now m uid y getStats = some peer') :
    peerState peer = peerState peer' ↔ seconds now x = seconds now y := by
  have htime : ∀ {x peer}, stateToJson stats now m uid x getStats = some peer →
      (peerState peer).lookup (bytes "xmpp_time") = some (seconds now x) := by
    intro x peer h
    unfold peerState
    rw [lookup_set_of_ne _ (by decide), lookup_stateToJson (by decide) h]
    rfl
  constructor
  · intro he
    exact Option.some.inj ((htime h).symm.trans (he ▸ htime h'))
  · intro he
    rw [stateToJson_congr he, h'] at h
    rw [Option.some.inj h]

theorem seconds_self_eq_iff : seconds now now = seconds now t ↔ (now - t).val < 1000 := by
  unfold seconds
  rw [Fin.sub_self, Value.int.injEq, Nat.cast_inj]
  have hzero : (0 : Fin (2 ^ 32)).val / 1000 = 0 := rfl
  omega

end

theorem mem_records {peers : List (List (Bytes × Value))} (h : records env s uid getStats = some peers)
    (r : List (Bytes × Value)) :
    r ∈ peers ↔ ∃ u x peer, (u, x) ∈ asked env s uid ∧
      stateToJson env.stats env.fresh.now s.manager u x getStats = some peer ∧ peerState peer = r := by
  unfold records at h
  rw [Option.map_eq_some_iff] at h
  obtain ⟨peers, hpeers, rfl⟩ := h
  simp only [List.mem_map, (getState_records hpeers).2]
  constructor
  · rintro ⟨peer, ⟨u, x, hux, hpeer⟩, hr⟩
    exact ⟨u, x, peer, hux, hpeer, hr⟩
  · rintro ⟨u, x, peer, hux, hpeer, hr⟩
    exact ⟨peer, ⟨u, x, hux, hpeer⟩, hr⟩

theorem records_of_friend {all : List (List (Bytes × Value))} (ht : (u, t) ∈ friends s.network)
    (hall : records env s [] getStats = some all) : ∃ one, records env s u getStats = some one := by
  by_cases hu : u = []
  · subst hu
    exact ⟨all, hall⟩
  · unfold records at hall
    rw [Option.map_eq_some_iff] at hall
    obtain ⟨peers, hpeers, _⟩ := hall
    have hsome : (stateToJson env.stats env.fresh.now s.manager u t getStats).isSome :=
      (getState_records hpeers).1 u t ht
    rw [isSome_stateToJson t env.fresh.now, Option.isSome_iff_exists] at hsome
    obtain ⟨peer, hpeer⟩ := hsome
    refine ⟨[peerState peer], ?_⟩
    unfold records asked
    rw [if_pos hu]
    simp [getState, hpeer]

theorem record_of_mem {one : List (List (Bytes × Value))} {r : List (Bytes × Value)}
    (hone : records env s uid getStats = some one) (hr : r ∈ one) (hu : About u r) :
    ∃ x peer, (u, x) ∈ asked env s uid ∧
      stateToJson env.stats env.fresh.now s.manager u x getStats = some peer ∧ peerState peer = r := by
  obtain ⟨v, x, peer, hv, hpeer, rfl⟩ := (mem_records hone r).mp hr
  obtain rfl := (about_iff hpeer).mp hu
  exact ⟨x, peer, hv, hpeer, rfl⟩

theorem exists_record {one : List (List (Bytes × Value))} (hone : records env s uid getStats = some one)
    (hx : (u, x) ∈ asked env s uid) : ∃ r ∈ one, About u r := by
  obtain ⟨peers, hpeers, _⟩ := Option.map_eq_some_iff.mp hone
  obtain ⟨peer, hpeer⟩ := Option.isSome_iff_exists.mp ((getState_records hpeers).1 u x hx)
  exact ⟨peerState peer, (mem_records hone _).mpr ⟨u, x, peer, hx, hpeer, rfl⟩, (about_iff hpeer).mpr rfl⟩

end

/-- A query for one friend and the query for all of them change no map, and they
give the same record on the friend just if its last presence is less than a
second old, as the first one does not look up when that was. -/
theorem queries_agree_iff_recent (libs : Libs) (env : Env) (s : Controller) (u : Bytes) (getStats : Bool)
    (t : Fin (2 ^ 32)) (all : List (List (Bytes × Value))) (ht : (u, t) ∈ friends s.network)
    (hall : records env s [] getStats = some all) :
    (∃ one, records env s u getStats = some one ∧ (∃ r ∈ one, About u r) ∧ (∃ r ∈ all, About u r) ∧
      ∀ r₁ ∈ one, ∀ r₂ ∈ all, About u r₁ → About u r₂ →
        (r₁ = r₂ ↔ u = [] ∨ (env.fresh.now - t).val < 1000)) ∧
    (∀ root addr o, getStateCall libs env s root addr = some o → o.state = s) ∧
    ∀ uid, visitedAll s.manager (asked env s uid) = s.manager := by
  have hasked : (u, t) ∈ asked env s [] := ht
  have htime : ∀ {x}, (u, x) ∈ friends s.network → x = t := by
    intro x hx
    exact Option.some.inj ((mem_friends.mp hx).symm.trans (mem_friends.mp ht))
  refine ⟨?_, ?_, fun uid => visitedAll_eq _ _⟩
  · obtain ⟨one, hone⟩ := records_of_friend ht hall
    refine ⟨one, hone, ?_, exists_record hall hasked, ?_⟩
    · by_cases hu : u = []
      · exact exists_record hone (x := t) (by simpa [asked, hu] using ht)
      · exact exists_record hone (x := env.fresh.now) (by simp [asked, hu])
    · intro r₁ hr₁ r₂ hr₂ h₁ h₂
      obtain ⟨x, peer, hx, hpeer, rfl⟩ := record_of_mem hone hr₁ h₁
      obtain ⟨y, peer', hy, hpeer', rfl⟩ := record_of_mem hall hr₂ h₂
      obtain rfl := htime hy
      rw [peerState_eq_iff hpeer hpeer']
      by_cases hu : u = []
      · obtain rfl := htime (x := x) (by simpa [asked, hu] using hx)
        simp [hu]
      · have hnow : x = env.fresh.now := by simpa [asked, hu] using hx
        rw [hnow, seconds_self_eq_iff]
        simp [hu]
  · intro root addr o h
    simp only [getStateCall, Option.bind_eq_bind, Option.bind_eq_some_iff, Option.some.injEq] at h
    obtain ⟨_, _, _, _, _, _, rfl⟩ := h
    rfl

def laterEnv : Env := { sampleEnv with fresh := ⟨1, 2, 5000⟩ }

theorem friends_singleton {n : Network} {uid : Bytes} {t : Fin (2 ^ 32)}
    (h : n.presenceTime = Finmap.singleton uid t) : friends n = [(uid, t)] := by
  unfold friends
  rw [h, Finmap.keys_singleton, inOrder, Finset.sort_singleton]
  simp

def bareRecord (uid : Bytes) (age : Nat) : List (Bytes × Value) :=
  [(bytes "uid", .string uid), (bytes "status", .string (bytes "offline")),
    (bytes "xmpp_time", .int age), (bytes "type", .string (bytes "peer_state"))]

theorem presence_run : ∃ s : Process.State,
    replay (step pairLibs) startState (loginEvents uidA jidA ++ onlineEvents jidA jidB) = some s ∧
    s.controller.network.presenceTime = Finmap.singleton uidB 0 ∧
    s.controller.manager.uidMap = PartialMap.empty ∧ s.controller.manager.ipMap = PartialMap.empty :=
  ⟨_, rfl, rfl, rfl, rfl⟩

theorem records_bare (env : Env) (uid : Bytes) {s : Controller} {u : Bytes} {t : Fin (2 ^ 32)}
    (hu : s.manager.uidMap = PartialMap.empty) (hip : s.manager.ipMap = PartialMap.empty)
    (hasked : asked env s uid = [(u, t)]) :
    records env s uid false = some [bareRecord u ((env.fresh.now - t).val / 1000)] := by
  unfold records
  rw [hasked]
  simp only [getState, List.mapM_cons, List.mapM_nil, stateToJson, hu, hip, PartialMap.empty]
  rfl

theorem friend_run : ∃ s : Process.State, Reachable (Steps (step pairLibs)) Initial s ∧
    (uidB, 0) ∈ friends s.controller.network ∧
    records laterEnv s.controller [] false = some [bareRecord uidB 5] ∧
    records laterEnv s.controller uidB false = some [bareRecord uidB 0] := by
  obtain ⟨s, hs, htime, hu, hip⟩ := presence_run
  have hfriends : friends s.controller.network = [(uidB, 0)] := friends_singleton htime
  refine ⟨s, ⟨startState, _, startState_initial, run_of_replay hs⟩, by simp [hfriends], ?_, ?_⟩
  · exact records_bare laterEnv [] hu hip hfriends
  · exact records_bare laterEnv uidB hu hip rfl

theorem queries_agree_iff_recent_friend : ∃ s : Process.State, ∃ r₁ r₂, About uidB r₁ ∧ About uidB r₂ ∧
    records laterEnv s.controller [] false = some [r₂] ∧
    records laterEnv s.controller uidB false = some [r₁] ∧
    (r₁ = r₂ ↔ uidB = [] ∨ (laterEnv.fresh.now - 0).val < 1000) := by
  obtain ⟨s, _, ht, hall, hone⟩ := friend_run
  obtain ⟨⟨one, hone', ⟨r₁, hr₁, h₁⟩, ⟨r₂, hr₂, h₂⟩, hagree⟩, _, _⟩ :=
    queries_agree_iff_recent pairLibs laterEnv s.controller uidB false 0 _ ht hall
  rw [hone, Option.some.injEq] at hone'
  subst hone'
  obtain rfl := List.mem_singleton.mp hr₁
  obtain rfl := List.mem_singleton.mp hr₂
  exact ⟨s, _, _, h₁, h₂, hall, hone, hagree _ hr₁ _ hr₂ h₁ h₂⟩

/-- Five seconds after its presence, the friend is reported with other ages. -/
theorem queries_disagree_later : ∃ s : Process.State, Reachable (Steps (step pairLibs)) Initial s ∧
    (uidB, 0) ∈ friends s.controller.network ∧
    ∃ r₁ r₂, About uidB r₁ ∧ About uidB r₂ ∧ records laterEnv s.controller uidB false = some [r₁] ∧
      records laterEnv s.controller [] false = some [r₂] ∧ r₁ ≠ r₂ := by
  obtain ⟨s, hs, ht, hall, hone⟩ := friend_run
  refine ⟨s, hs, ht, bareRecord uidB 0, bareRecord uidB 5, rfl, rfl, hone, hall, ?_⟩
  simp [bareRecord]

end Tincan.StateQueries
