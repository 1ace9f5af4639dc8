import Tincan.ConnectionManager
import Tincan.Json

namespace Tincan.StateReport

open Tincan.Library Tincan.Library.Text Tincan.Libjingle Tincan.ConnectionManager Tincan.Json

structure ConnectionInfo where
  localAddr : Bytes
  remAddr : Bytes
  localType : Bytes
  remType : Bytes
  bestConn : Bool
  writable : Bool
  readable : Bool
  timeout : Bool
  newConn : Bool
  rtt : Nat
  sentTotalBytes : Nat
  sentBytesSecond : Nat
  recvTotalBytes : Nat
  recvBytesSecond : Nat

def uint (n : Nat) : Value := .int (n % 2 ^ 32 : Nat)

def ConnectionInfo.toJson (i : ConnectionInfo) : Value :=
  .object [(bytes "local_addr", .string i.localAddr), (bytes "rem_addr", .string i.remAddr),
    (bytes "local_type", .string i.localType), (bytes "rem_type", .string i.remType),
    (bytes "best_conn", .boolean i.bestConn), (bytes "writable", .boolean i.writable),
    (bytes "readable", .boolean i.readable), (bytes "timeout", .boolean i.timeout),
    (bytes "new_conn", .boolean i.newConn), (bytes "rtt", uint i.rtt),
    (bytes "sent_total_bytes", uint i.sentTotalBytes),
    (bytes "sent_bytes_second", uint i.sentBytesSecond),
    (bytes "recv_total_bytes", uint i.recvTotalBytes),
    (bytes "recv_bytes_second", uint i.recvBytesSecond)]

def seconds (now since : Fin (2 ^ 32)) : Value := .int ((now - since).val / 1000 : Nat)

/-- The report on one peer, as the members of an object. `none` is the use of
a null pointer. -/
def stateToJson (stats : Ptr → List ConnectionInfo) (now : Fin (2 ^ 32)) (m : Manager) (uid : Bytes)
    (xmppTime : Fin (2 ^ 32)) (getStats : Bool) : Option (List (Bytes × Value)) :=
  let peer := [(bytes "uid", .string uid), (bytes "status", .string (bytes "offline")),
    (bytes "xmpp_time", seconds now xmppTime)]
  let peer := match m.ipMap uid with
    | some ips => set (set peer (bytes "ip4") (.string ips.ip4)) (bytes "ip6") (.string ips.ip6)
    | none => peer
  match m.uidMap uid with
  | none => some peer
  | some none => none
  | some (some p) =>
    let peer := set peer (bytes "fpr") (.string p.fingerprint)
    let peer := set peer (bytes "last_time") (seconds now p.lastTime)
    match m.transports p.transport with
    | none => none
    | some tr =>
      if tr.readable ∧ tr.writable then
        let peer := set peer (bytes "status") (.string (bytes "online"))
        let peer := set peer (bytes "security") (.string p.connectionSecurity)
        if getStats then
          tr.channel.map (fun channel =>
            set peer (bytes "stats") (.array ((stats channel).map ConnectionInfo.toJson)))
        else some peer
      else some peer

def getState (stats : Ptr → List ConnectionInfo) (now : Fin (2 ^ 32)) (m : Manager)
    (friends : List (Bytes × Fin (2 ^ 32))) (getStats : Bool) :
    Option (List (List (Bytes × Value))) :=
  friends.mapM (fun (uid, xmppTime) => stateToJson stats now m uid xmppTime getStats)

section

variable {stats : Ptr → List ConnectionInfo} {now xmppTime : Fin (2 ^ 32)} {m : Manager} {uid : Bytes}
  {getStats : Bool} {fields : List (Bytes × Value)} {v : Value}

def Silent (members : List (Bytes × Value)) : Prop := ∀ v, (bytes "security", v) ∉ members

theorem Silent.set {members : List (Bytes × Value)} {key : Bytes} (h : Silent members)
    (hkey : bytes "security" ≠ key) (value : Value) : Silent (set members key value) := by
  intro v hv
  obtain ⟨he, _⟩ | hold := mem_set hv
  · exact hkey he
  · exact h v hold

theorem reported_security (h : stateToJson stats now m uid xmppTime getStats = some fields)
    (hv : (bytes "security", v) ∈ fields) :
    ∃ p, m.uidMap uid = some (some p) ∧ v = .string p.connectionSecurity := by
  unfold stateToJson at h
  extract_lets base first at h
  have hbase : Silent base := by
    intro v hv
    have hkey : bytes "security" ∈ [bytes "uid", bytes "status", bytes "xmpp_time"] :=
      List.mem_map_of_mem (f := Prod.fst) hv
    exact absurd hkey (by decide)
  have hfirst : Silent first := by
    unfold first
    split
    · exact (hbase.set (by decide) _).set (by decide) _
    · exact hbase
  split at h
  · rw [← Option.some.inj h] at hv
    exact absurd hv (hfirst v)
  · cases h
  · next p hp =>
    refine ⟨p, hp, ?_⟩
    extract_lets withFpr peer at h
    have hpeer : Silent peer := (hfirst.set (by decide) _).set (by decide) _
    split at h
    · cases h
    · next tr htr =>
      split at h
      · next online labelled _ _ =>
        have honline : Silent online := hpeer.set (by decide) _
        have hlabel : ∀ v, (bytes "security", v) ∈ labelled → v = .string p.connectionSecurity := by
          intro v hv
          obtain ⟨_, hl⟩ | hold := mem_set hv
          · exact hl
          · exact absurd hold (honline v)
        split at h
        · rw [Option.map_eq_some_iff] at h
          obtain ⟨channel, _, rfl⟩ := h
          obtain ⟨he, _⟩ | hold := mem_set hv
          · exact absurd he (by decide)
          · exact hlabel v hold
        · rw [← Option.some.inj h] at hv
          exact hlabel v hv
      · rw [← Option.some.inj h] at hv
        exact absurd hv (hpeer v)

def laterKeys : List Bytes :=
  [bytes "ip4", bytes "ip6", bytes "fpr", bytes "last_time", bytes "status", bytes "security", bytes "stats"]

theorem lookup_set_later {members : List (Bytes × Value)} {k key : Bytes} (hk : k ∉ laterKeys)
    (hkey : key ∈ laterKeys) (value : Value) : (set members key value).lookup k = members.lookup k := by
  refine lookup_set_of_ne value ?_
  rintro rfl
  exact hk hkey

theorem lookup_stateToJson {k : Bytes} (hk : k ∉ laterKeys)
    (h : stateToJson stats now m uid xmppTime getStats = some fields) :
    fields.lookup k = [(bytes "uid", .string uid), (bytes "status", .string (bytes "offline")),
      (bytes "xmpp_time", seconds now xmppTime)].lookup k := by
  unfold stateToJson at h
  extract_lets base first at h
  have hfirst : first.lookup k = base.lookup k := by
    unfold first
    split
    · rw [lookup_set_later hk (by simp [laterKeys]), lookup_set_later hk (by simp [laterKeys])]
    · rfl
  split at h
  · rw [← Option.some.inj h, hfirst]
  · cases h
  · extract_lets withFpr peer at h
    have hpeer : peer.lookup k = base.lookup k := by
      rw [← hfirst]
      unfold peer withFpr
      rw [lookup_set_later hk (by simp [laterKeys]), lookup_set_later hk (by simp [laterKeys])]
    split at h
    · cases h
    · next tr htr =>
      split at h
      · next online labelled _ _ =>
        have hlabelled : labelled.lookup k = base.lookup k := by
          rw [← hpeer]
          unfold labelled online
          rw [lookup_set_later hk (by simp [laterKeys]), lookup_set_later hk (by simp [laterKeys])]
        split at h
        · rw [Option.map_eq_some_iff] at h
          obtain ⟨channel, _, hfields⟩ := h
          rw [← hfields, lookup_set_later hk (by simp [laterKeys]), hlabelled]
        · rw [← Option.some.inj h, hlabelled]
      · rw [← Option.some.inj h, hpeer]

/-- The presence counts only for the time since then, and not for whether there is an answer. -/
theorem stateToJson_congr {x y : Fin (2 ^ 32)} (h : seconds now x = seconds now y) :
    stateToJson stats now m uid x getStats = stateToJson stats now m uid y getStats := by
  unfold stateToJson
  rw [h]

theorem isSome_stateToJson (x y : Fin (2 ^ 32)) :
    (stateToJson stats now m uid x getStats).isSome = (stateToJson stats now m uid y getStats).isSome := by
  unfold stateToJson
  dsimp only
  split
  · rfl
  · rfl
  · split
    · rfl
    · split
      · split
        · rw [Option.isSome_map, Option.isSome_map]
        · rfl
      · rfl

theorem getState_records {asked : List (Bytes × Fin (2 ^ 32))} {peers : List (List (Bytes × Value))}
    (h : getState stats now m asked getStats = some peers) :
    (∀ u x, (u, x) ∈ asked → (stateToJson stats now m u x getStats).isSome) ∧
      ∀ r, r ∈ peers ↔ ∃ u x, (u, x) ∈ asked ∧ stateToJson stats now m u x getStats = some r := by
  unfold getState at h
  induction asked generalizing peers with
  | nil =>
    cases h
    simp
  | cons q asked ih =>
    simp only [List.mapM_cons, Option.bind_eq_bind, Option.bind_eq_some_iff, Option.pure_def,
      Option.some.injEq] at h
    obtain ⟨first, hfirst, rest, hrest, rfl⟩ := h
    obtain ⟨hsome, hmem⟩ := ih hrest
    constructor
    · intro u x hux
      obtain rfl | hux := List.mem_cons.mp hux
      · exact Option.isSome_iff_exists.mpr ⟨first, hfirst⟩
      · exact hsome u x hux
    · intro r
      rw [List.mem_cons, hmem]
      constructor
      · rintro (rfl | ⟨u, x, hux, hr⟩)
        · exact ⟨q.1, q.2, List.mem_cons_self, hfirst⟩
        · exact ⟨u, x, List.mem_cons_of_mem q hux, hr⟩
      · rintro ⟨u, x, hux, hr⟩
        obtain rfl | hux := List.mem_cons.mp hux
        · exact .inl (Option.some.inj (hr.symm.trans hfirst))
        · exact .inr ⟨u, x, hux, hr⟩

end

end Tincan.StateReport
