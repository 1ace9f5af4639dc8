import Tincan.Routes

namespace Tincan.CandidateExchange

open Tincan.Library Tincan.Library.Text Tincan.Library.Tokens Tincan.Library.Numerals
open Tincan.Libjingle Tincan.ConnectionManager

/-- The twelve values of a candidate that are sent to the peer. -/
structure Record where
  id : Bytes
  component : Int
  protocol : Bytes
  ip : IPAddress
  port : Fin 65536
  priority : Fin (2 ^ 32)
  username : Bytes
  password : Bytes
  type : Bytes
  networkName : Bytes
  generation : Fin (2 ^ 32)
  foundation : Bytes
  deriving DecidableEq

def record (c : Candidate) : Record :=
  ⟨c.id, c.component, c.protocol, c.address.ip, c.address.port, c.priority, c.username, c.password,
    c.type, cutAt 32 c.networkName, c.generation, c.foundation⟩

def IsPlain (s : Bytes) : Prop := ∀ b ∈ s, b ≠ kCandidateDelim ∧ isSpace b = false

/-- A candidate whose texts cannot be mistaken for a delimiter and whose
numbers are in the range that is read back. -/
structure Advertisable (c : Candidate) : Prop where
  ipv4 : ∃ a, c.address.ip = .v4 a
  component_nonneg : 0 ≤ c.component
  component_lt : c.component < 2 ^ 31
  priority_lt : c.priority.val < 2 ^ 31
  generation_lt : c.generation.val < 2 ^ 31
  id : IsPlain c.id
  protocol : IsPlain c.protocol
  username : IsPlain c.username
  password : IsPlain c.password
  type : IsPlain c.type
  networkName : IsPlain (cutAt 32 c.networkName)
  foundation : IsPlain c.foundation

def fields (L : Api) (c : Candidate) : List Bytes :=
  [c.id, decimalInt c.component, c.protocol, L.ipToString c.address.ip, decimal c.address.port,
    decimal c.priority, c.username, c.password, c.type, cutAt 32 c.networkName,
    decimal c.generation, c.foundation]

theorem isPlain_of_all {s : Bytes} (h : s.all (fun b => b != kCandidateDelim && !isSpace b) = true) :
    IsPlain s := by
  intro b hb
  simpa using List.all_eq_true.mp h b hb

theorem isPlain_decimal (n : Nat) : IsPlain (decimal n) := by
  intro b hb
  have hd := isDigit_of_mem_decimal hb
  refine ⟨?_, not_isSpace_of_isDigit hd⟩
  rintro rfl
  exact absurd hd (by decide)

theorem isPlain_dotted {L : Api} (hdot : L.ReadsDotted) (a : Fin (2 ^ 32)) :
    IsPlain (L.ipToString (.v4 a)) := by
  intro b hb
  obtain hd | rfl := hdot.chars a b hb
  · refine ⟨?_, not_isSpace_of_isDigit hd⟩
    rintro rfl
    exact absurd hd (by decide)
  · exact ⟨by decide, by decide⟩

theorem isPlain_decimalInt (i : Int) : IsPlain (decimalInt i) := by
  unfold decimalInt
  split
  · intro b hb
    obtain rfl | hb := List.mem_cons.mp hb
    · exact ⟨by decide, by decide⟩
    · exact isPlain_decimal _ b hb
  · exact isPlain_decimal _

structure TextsPlain (c : Candidate) : Prop where
  id : IsPlain c.id
  protocol : IsPlain c.protocol
  username : IsPlain c.username
  password : IsPlain c.password
  type : IsPlain c.type
  foundation : IsPlain c.foundation

theorem isPlain_fields_iff {L : Api} {c : Candidate} (h : TextsPlain c) :
    (∀ f ∈ fields L c, IsPlain f) ↔
      IsPlain (cutAt 32 c.networkName) ∧ IsPlain (L.ipToString c.address.ip) := by
  constructor
  · intro hf
    exact ⟨hf _ (by simp [fields]), hf _ (by simp [fields])⟩
  · rintro ⟨hname, hip⟩ f hf
    simp only [fields, List.mem_cons, List.not_mem_nil, or_false] at hf
    obtain rfl | rfl | rfl | rfl | rfl | rfl | rfl | rfl | rfl | rfl | rfl | rfl := hf
    · exact h.id
    · exact isPlain_decimalInt _
    · exact h.protocol
    · exact hip
    · exact isPlain_decimal _
    · exact isPlain_decimal _
    · exact h.username
    · exact h.password
    · exact h.type
    · exact hname
    · exact isPlain_decimal _
    · exact h.foundation

theorem isPlain_fields {L : Api} (hdot : L.ReadsDotted) {c : Candidate} (h : Advertisable c) :
    ∀ f ∈ fields L c, IsPlain f := by
  obtain ⟨a, ha⟩ := h.ipv4
  have htexts : TextsPlain c := ⟨h.id, h.protocol, h.username, h.password, h.type, h.foundation⟩
  exact (isPlain_fields_iff htexts).mpr ⟨h.networkName, ha ▸ isPlain_dotted hdot a⟩

theorem isToken_encodeCandidate_iff {L : Api} {c : Candidate} :
    IsToken (encodeCandidate L c) ↔ ∀ f ∈ fields L c, ∀ b ∈ f, isSpace b = false := by
  constructor
  · intro h f hf b hb
    exact h.2 b (mem_intercalate_of_mem hf hb)
  · intro h
    constructor
    · simp [encodeCandidate, List.intercalate]
    · intro b hb
      obtain hs | ⟨f, hf, hbf⟩ := mem_intercalate hb
      · rw [List.mem_singleton.mp hs]
        rfl
      · exact h f hf b hbf

theorem isToken_encodeCandidate {L : Api} (hdot : L.ReadsDotted) {c : Candidate}
    (h : Advertisable c) : IsToken (encodeCandidate L c) :=
  isToken_encodeCandidate_iff.mpr (fun f hf b hb => (isPlain_fields hdot h f hf b hb).2)

theorem atoi_decimalInt {i : Int} (h : 0 ≤ i) (hlt : i < 2 ^ 31) : atoi (decimalInt i) = i := by
  obtain ⟨n, rfl⟩ := Int.eq_ofNat_of_zero_le h
  rw [decimalInt_ofNat, atoi_decimal (by omega)]

theorem toUInt32_atoi_decimal (n : Fin (2 ^ 32)) : toUInt32 (atoi (decimal n)) = n := by
  rw [atoi_decimal_bmod (by omega), Int.bmod_def]
  apply Fin.ext
  simp only [toUInt32, Fin.ofNat]
  omega

/-- Decoding a record inverts encoding it, up to the dropped part of the network name. -/
theorem decodeCandidate_encodeCandidate {L : Api} (hsplit : L.Splits) (hdot : L.ReadsDotted)
    {c : Candidate} (h : Advertisable c) :
    ∃ d, decodeCandidate L (encodeCandidate L c) = some d ∧ record d = record c := by
  have hfields : L.split (encodeCandidate L c) kCandidateDelim = fields L c := by
    rw [hsplit]
    refine List.splitOn_intercalate kCandidateDelim ?_ (by simp)
    intro f hf hmem
    exact (isPlain_fields hdot h f hf _ hmem).1 rfl
  have hport : atoi (decimal c.address.port) = c.address.port.val := atoi_decimal (by omega)
  obtain ⟨a, ha⟩ := h.ipv4
  have hip := hdot.ip a c.address.port.val
  have hport' := hdot.port a c.address.port
  have hname : cutAt 32 (cutAt 32 c.networkName) = cutAt 32 c.networkName := by
    refine List.takeWhile_eq_self_iff.mpr fun b hb => ?_
    exact List.mem_takeWhile_imp (p := fun c => c != 32) hb
  unfold decodeCandidate
  rw [hfields]
  refine ⟨_, rfl, ?_⟩
  simp only [record, atoi_decimalInt h.component_nonneg h.component_lt, hport, ha, hip, hport',
    toUInt32_atoi_decimal, hname]

theorem encodeCandidate_congr (L : Api) {c d : Candidate} (h : record c = record d) :
    encodeCandidate L c = encodeCandidate L d := by
  simp only [record, Record.mk.injEq] at h
  obtain ⟨hid, hcomponent, hprotocol, hip, hport, hpriority, huser, hpass, htype, hname, hgen, hfound⟩ := h
  simp only [encodeCandidate, hid, hcomponent, hprotocol, hip, hport, hpriority, huser, hpass, htype,
    hname, hgen, hfound]

theorem readCandidates_eq {L : Api} (hsplit : L.Splits) (iss : IStream) (hf : iss.fail = false)
    (candidates : List Candidate) :
    readCandidates L iss candidates =
      candidates ++ (tokens iss.rest).filterMap (decodeCandidate L) := by
  have hempty : decodeCandidate L [] = none := by
    simp [decodeCandidate, hsplit [] kCandidateDelim]
  generalize hw : tokens iss.rest = ws
  induction ws generalizing iss candidates with
  | nil =>
    obtain ⟨hword, hfail⟩ := readWord_end hw
    rw [readCandidates, hword, hempty, dif_pos hfail]
    simp
  | cons w ws ih =>
    obtain ⟨hword, hfail, hrest⟩ := readWord_token hf hw
    rw [readCandidates, hword, dif_neg (by simp [hfail]), ih _ hfail _ hrest]
    cases hd : decodeCandidate L w <;> simp [hd]

/-- The candidates of a history of batches that are not on the tap interface. -/
def advertised (m : Manager) (batches : List (List Candidate)) : List Candidate :=
  batches.flatten.filter (fun c => c.networkName ≠ m.tapName)

def ready (L : Api) (m : Manager) (t : Ptr) (batches : List (List Candidate)) : Manager :=
  batches.foldl (fun m batch => (onCandidatesReady L m t batch).manager) m

theorem foldl_insert (L : Api) (tapName : Bytes) (batch : List Candidate) (l : Finset Bytes) :
    batch.foldl (fun l c => if c.networkName = tapName then l else insert (encodeCandidate L c) l) l =
      l ∪ ((batch.filter (fun c => c.networkName ≠ tapName)).map (encodeCandidate L)).toFinset := by
  induction batch generalizing l with
  | nil => simp
  | cons c batch ih =>
    rw [List.foldl_cons, ih]
    by_cases hc : c.networkName = tapName
    · simp [hc]
    · ext w
      simp [hc]

section

variable {L : Api} {m : Manager} {t : Ptr} {uid : Bytes} {p : PeerState}

theorem onCandidatesReady_eq (ht : m.transportMap t = some uid) (hp : m.uidMap uid = some (some p))
    (batch : List Candidate) :
    onCandidatesReady L m t batch = ⟨{ m with uidMap := m.uidMap.insert uid (some { p with
      candidateList := p.candidateList ∪
        ((advertised m [batch]).map (encodeCandidate L)).toFinset }) }, [], false⟩ := by
  simp only [onCandidatesReady, PartialMap.index_of_mem [] ht, PartialMap.index_of_mem none hp,
    foldl_insert, advertised, List.flatten_singleton]

theorem ready_eq (ht : m.transportMap t = some uid) (hp : m.uidMap uid = some (some p))
    (batches : List (List Candidate)) :
    ready L m t batches = { m with uidMap := m.uidMap.insert uid (some { p with
      candidateList := p.candidateList ∪
        ((advertised m batches).map (encodeCandidate L)).toFinset }) } := by
  induction batches generalizing m p with
  | nil =>
    simp [ready, advertised, PartialMap.insert_of_mem hp]
  | cons batch batches ih =>
    have hstep := onCandidatesReady_eq (L := L) ht hp batch
    have hrest := ih (m := (onCandidatesReady L m t batch).manager) (by rw [hstep]; exact ht)
      (by rw [hstep]; exact PartialMap.insert_self _ _ _)
    change ready L (onCandidatesReady L m t batch).manager t batches = _
    rw [hrest, hstep]
    simp [advertised, PartialMap.insert, Finset.union_assoc]

theorem foldl_data (fingerprint : Bytes) (words : List Bytes) :
    words.foldl (fun data c => data ++ [32] ++ c) fingerprint =
      if words = [] then fingerprint else fingerprint ++ 32 :: [32].intercalate words := by
  induction words generalizing fingerprint with
  | nil => rfl
  | cons w words ih =>
    rw [List.foldl_cons, ih]
    cases words with
    | nil => simp [List.intercalate]
    | cons v words => simp [List.intercalate_cons_cons]

/-- What a link that started without candidates advertises after a history of batches. -/
def words (L : Api) (m : Manager) (batches : List (List Candidate)) : List Bytes :=
  inOrder ((advertised m batches).map (encodeCandidate L)).toFinset

theorem mem_words {batches : List (List Candidate)} {w : Bytes} :
    w ∈ words L m batches ↔ ∃ c ∈ advertised m batches, encodeCandidate L c = w := by
  simp [words]

theorem onCandidatesAllocationDone_ready (ht : m.transportMap t = some uid)
    (hp : m.uidMap uid = some (some p)) (hnew : p.candidateList = ∅)
    (batches : List (List Candidate)) :
    onCandidatesAllocationDone (ready L m t batches) t = ⟨ready L m t batches,
      [⟨p.overlayId, uid, if words L m batches = [] then m.fingerprint
        else m.fingerprint ++ 32 :: [32].intercalate (words L m batches), kConResp⟩], false⟩ := by
  have hlist : ∅ ∪ ((advertised m batches).map (encodeCandidate L)).toFinset =
      ((advertised m batches).map (encodeCandidate L)).toFinset := Finset.empty_union _
  rw [ready_eq ht hp, hnew, hlist]
  rw [onCandidatesAllocationDone_eq (by exact ht) (PartialMap.insert_self _ _ _), foldl_data]
  rfl

theorem decode_words (hsplit : L.Splits) (hdot : L.ReadsDotted) {batches : List (List Candidate)}
    (hb : ∀ c ∈ advertised m batches, Advertisable c) :
    (((words L m batches).filterMap (decodeCandidate L)).map record).Nodup ∧
    ∀ r, r ∈ ((words L m batches).filterMap (decodeCandidate L)).map record ↔
      r ∈ (advertised m batches).map record := by
  have hdecode : ∀ w ∈ words L m batches, ∃ c ∈ advertised m batches, ∃ d,
      encodeCandidate L c = w ∧ decodeCandidate L w = some d ∧ record d = record c := by
    intro w hw
    obtain ⟨c, hc, rfl⟩ := mem_words.mp hw
    obtain ⟨d, hd, hr⟩ := decodeCandidate_encodeCandidate hsplit hdot (hb c hc)
    exact ⟨c, hc, d, rfl, hd, hr⟩
  constructor
  · have hnodup : (words L m batches).Nodup := nodup_inOrder _
    refine List.pairwise_map.mpr (List.pairwise_filterMap.mpr (hnodup.imp_of_mem ?_))
    intro v w hv hw hne d hd e he hde
    obtain ⟨c, _, d', hcv, hd', hr⟩ := hdecode v hv
    obtain ⟨c', _, e', hcw, he', hr'⟩ := hdecode w hw
    rw [hd'] at hd
    rw [he'] at he
    cases hd
    cases he
    have hcc : record c = record c' := by rw [← hr, hde, hr']
    exact hne (by rw [← hcv, ← hcw, encodeCandidate_congr L hcc])
  · intro r
    simp only [List.mem_map, List.mem_filterMap]
    constructor
    · rintro ⟨d, ⟨w, hw, hd⟩, rfl⟩
      obtain ⟨c, hc, d', _, hd', hr⟩ := hdecode w hw
      rw [hd'] at hd
      cases hd
      exact ⟨c, hc, hr.symm⟩
    · rintro ⟨c, hc, rfl⟩
      obtain ⟨d, hd, hr⟩ := decodeCandidate_encodeCandidate hsplit hdot (hb c hc)
      exact ⟨d, ⟨_, mem_words.mpr ⟨c, hc, rfl⟩, hd⟩, hr⟩

theorem tokens_data (hdot : L.ReadsDotted) {batches : List (List Candidate)}
    (hb : ∀ c ∈ advertised m batches, Advertisable c) (fingerprint : Bytes) :
    tokens ((if words L m batches = [] then fingerprint
      else fingerprint ++ 32 :: [32].intercalate (words L m batches)).drop (fingerprint.length + 1)) =
      words L m batches := by
  split
  · next h =>
    rw [h, List.drop_eq_nil_of_le (by omega), tokens_nil]
  · have hdrop : (fingerprint ++ 32 :: [32].intercalate (words L m batches)).drop
        (fingerprint.length + 1) = [32].intercalate (words L m batches) := by
      simp
    rw [hdrop]
    refine tokens_intercalate rfl _ fun w hw => ?_
    obtain ⟨c, hc, rfl⟩ := mem_words.mp hw
    exact isToken_encodeCandidate hdot (hb c hc)

theorem createConnections_eq (hsplit : L.Splits) {s : Bytes} {tr : Transport}
    (hp : m.uidMap uid = some (some p)) (hnone : p.candidates = [])
    (htr : m.transports p.transport = some tr) :
    createConnections L m uid s =
      let candidates := (tokens s).filterMap (decodeCandidate L)
      some ({ m with
        uidMap := m.uidMap.insert uid (some { p with candidates := candidates })
        transports := m.transports.insert p.transport
          { tr with remoteCandidates := tr.remoteCandidates ++ candidates } }, true) := by
  have hread : readCandidates L (IStream.ofBytes s) [] = (tokens s).filterMap (decodeCandidate L) := by
    rw [readCandidates_eq hsplit (IStream.ofBytes s) rfl, List.nil_append]
    rfl
  simp [createConnections, hp, hnone, htr, hread]

/-- Candidates that one side gathers in any batches arrive on the other side,
each once and with all its values, and how they were batched is not visible in
the message. -/
theorem candidates_round_trip (hsplit : L.Splits) (hdot : L.ReadsDotted)
    (ht : m.transportMap t = some uid) (hp : m.uidMap uid = some (some p))
    (hnew : p.candidateList = ∅) (batches : List (List Candidate))
    (hb : ∀ c ∈ advertised m batches, Advertisable c) {peer : Manager} {uid' : Bytes} {p' : PeerState}
    {tr : Transport} (hp' : peer.uidMap uid' = some (some p')) (hnone : p'.candidates = [])
    (htr : peer.transports p'.transport = some tr) :
    ∃ data, onCandidatesAllocationDone (ready L m t batches) t =
        ⟨ready L m t batches, [⟨p.overlayId, uid, data, kConResp⟩], false⟩ ∧
      (∃ peer' q, createConnections L peer uid' (data.drop (m.fingerprint.length + 1)) =
          some (peer', true) ∧ peer'.uidMap uid' = some (some q) ∧
        (q.candidates.map record).Nodup ∧
        ∀ r, r ∈ q.candidates.map record ↔ r ∈ (advertised m batches).map record) ∧
      ∀ batches', (∀ c, c ∈ advertised m batches' ↔ c ∈ advertised m batches) →
        (onCandidatesAllocationDone (ready L m t batches') t).sent =
          [⟨p.overlayId, uid, data, kConResp⟩] := by
  have hdone := fun batches => onCandidatesAllocationDone_ready (L := L) ht hp hnew batches
  refine ⟨_, hdone batches, ?_, ?_⟩
  · rw [createConnections_eq hsplit hp' hnone htr, tokens_data hdot hb]
    exact ⟨_, _, rfl, PartialMap.insert_self _ _ _, decode_words hsplit hdot hb⟩
  · intro batches' hsame
    have hwords : words L m batches' = words L m batches := by
      unfold words
      congr 1
      ext w
      simp only [List.mem_toFinset, List.mem_map, hsame]
    rw [hdone, hwords]

end

def udpCandidate (networkName : Bytes) (port : Fin 65536) : Candidate where
  id := bytes "1"
  component := 1
  protocol := bytes "udp"
  address := ⟨[], .v4 3232235777, port⟩
  priority := 2130706431
  username := bytes "ufrag"
  password := bytes "pwd"
  type := bytes "local"
  networkName := networkName
  generation := 0
  foundation := bytes "f"

def sampleBatches : List (List Candidate) :=
  [[udpCandidate (bytes "eth0 main") 5000, udpCandidate (bytes "ipop") 5001],
    [udpCandidate (bytes "wlan0") 5002, udpCandidate (bytes "eth0 main") 5000]]

theorem advertisable_udpCandidate {networkName : Bytes} (port : Fin 65536)
    (h : IsPlain (cutAt 32 networkName)) : Advertisable (udpCandidate networkName port) where
  ipv4 := ⟨_, rfl⟩
  component_nonneg := (by decide : (0 : Int) ≤ 1)
  component_lt := (by decide : (1 : Int) < 2 ^ 31)
  priority_lt := (by decide : (2130706431 : Nat) < 2 ^ 31)
  generation_lt := (by decide : (0 : Nat) < 2 ^ 31)
  id := isPlain_of_all rfl
  protocol := isPlain_of_all rfl
  username := isPlain_of_all rfl
  password := isPlain_of_all rfl
  type := isPlain_of_all rfl
  networkName := h
  foundation := isPlain_of_all rfl

theorem candidates_round_trip_two :
    let here := (Routes.created Routes.start Routes.uidA ⟨1, 2, 0⟩).manager
    let there := (Routes.created Routes.start Routes.uidB ⟨1, 2, 0⟩).manager
    ∃ data, onCandidatesAllocationDone (ready Api.plain here 1 sampleBatches) 1 =
        ⟨ready Api.plain here 1 sampleBatches, [⟨1, Routes.uidA, data, kConResp⟩], false⟩ ∧
      (∃ peer' q, createConnections Api.plain there Routes.uidB
          (data.drop (here.fingerprint.length + 1)) = some (peer', true) ∧
        peer'.uidMap Routes.uidB = some (some q) ∧ (q.candidates.map record).Nodup ∧
        ∀ r, r ∈ q.candidates.map record ↔ r ∈ (advertised here sampleBatches).map record) ∧
      ∀ batches', (∀ c, c ∈ advertised here batches' ↔ c ∈ advertised here sampleBatches) →
        (onCandidatesAllocationDone (ready Api.plain here 1 batches') 1).sent =
          [⟨1, Routes.uidA, data, kConResp⟩] := by
  let peerState := fun uid =>
    (buildTransport Api.plain Routes.start.manager (Routes.sampleRequest uid) ⟨1, 2, 0⟩).2
  have hhere : (Routes.created Routes.start Routes.uidA ⟨1, 2, 0⟩).manager.uidMap Routes.uidA =
      some (some (peerState Routes.uidA)) := rfl
  have hthere : (Routes.created Routes.start Routes.uidB ⟨1, 2, 0⟩).manager.uidMap Routes.uidB =
      some (some (peerState Routes.uidB)) := rfl
  refine candidates_round_trip plain_splits plain_readsDotted rfl hhere rfl sampleBatches ?_ hthere
    rfl rfl
  intro c hc
  simp only [advertised, sampleBatches, List.flatten_cons, List.flatten_nil, List.mem_filter,
    List.mem_append, List.mem_cons, List.not_mem_nil, or_false] at hc
  obtain ⟨(rfl | rfl) | rfl | rfl, hn⟩ := hc
  · exact advertisable_udpCandidate _ (isPlain_of_all rfl)
  · exact absurd hn (by decide)
  · exact advertisable_udpCandidate _ (isPlain_of_all rfl)
  · exact advertisable_udpCandidate _ (isPlain_of_all rfl)

end Tincan.CandidateExchange
