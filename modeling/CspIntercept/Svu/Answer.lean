import CspIntercept.Svu.Transfer

open Overlay csp_intercept.ci_svu csp_intercept.svu_proto csp_intercept.svu_session

namespace csp_intercept.svu_serve

/-- The bytes of the file that go into one data packet of a request. -/
def payload_size (req : SvuReq) : UInt32 :=
  let mtu := if req.mtu > SVU_DATA_HDR then req.mtu else 256
  if mtu > SVU_DATA_HDR then mtu - SVU_DATA_HDR else 1

/-- A requested interval, clipped to the file. -/
def clip (total : UInt32) (iv : CiSvuInterval) : UInt32 × UInt32 :=
  (iv.start, if iv.end_ > total then total else iv.end_)

/-- The intervals a list of requested ones asks for. -/
def clipped (total : UInt32) (ivs : List CiSvuInterval) : List (UInt32 × UInt32) :=
  (ivs.map (clip total)).filter fun r => r.1 < r.2

/-- The intervals a request asks for: those it lists, or the whole file. -/
def requested (total : UInt32) (req : SvuReq) : List (UInt32 × UInt32) :=
  if req.nof_intervals = 0 then [(0, total)]
  else clipped total (req.intervals.toList.take req.nof_intervals.toNat)

/-- One interval is answered: each piece is read inside the file, written inside the
    packet buffer, and read back as the file's bytes at their own offsets; every byte of the
    interval comes in exactly one packet. -/
structure Answers (src : List UInt8) (session total : UInt32) (r : UInt32 × UInt32)
    (chunks : List (UInt32 × UInt32)) : Prop where
  reads : ∀ c ∈ chunks, c.1.toNat + c.2.toNat ≤ total.toNat
  writes : ∀ c ∈ chunks, 8 + c.2.toNat ≤ 2048
  length : ∀ c ∈ chunks, (data_packet session src c.1 c.2).length.toNat = c.2.toNat + 8
  carried : ∀ c ∈ chunks, ∃ f, packet_fragment (data_packet session src c.1 c.2) = some f ∧
    ∀ i, f.write.Covers i → f.write.itemAt i = src[i]? ∧ r.1.toNat ≤ i ∧ i < r.2.toNat
  once : ∀ i, r.1.toNat ≤ i → i < r.2.toNat →
    ((chunks.map fun c => data_packet session src c.1 c.2).filterMap packet_fragment).countP
      (fun f => f.write.Covers i) = 1

/-- The request is answered: the loop of each interval ends and answers it, and the data
    packets are those of the pieces, one interval after the other. -/
def ServesExactly (src : List UInt8) (total : UInt32) (req : SvuReq) : Prop :=
  ∃ groups, List.Forall₂ (fun r chunks =>
      chunk_loop (payload_size req) r.2 (2 ^ 32) r.1 = some chunks ∧
        Answers src req.session_id total r chunks) (requested total req) groups ∧
    serve_data src total req = some (groups.flatten.map fun c => data_packet req.session_id src c.1 c.2)

/-- The loop over the interval does not wrap, and its packets fit the packet buffer. -/
def Servable (pay : Nat) (r : UInt32 × UInt32) : Prop :=
  Unwrapped r.1.toNat r.2.toNat pay ∧ min pay (r.2.toNat - r.1.toNat) ≤ 2040

instance (pay : Nat) (r : UInt32 × UInt32) : Decidable (Servable pay r) :=
  inferInstanceAs (Decidable (_ ∧ _))

theorem exists_forall₂ {α β : Type} {P : α → β → Prop} {l : List α} (h : ∀ a ∈ l, ∃ b, P a b) :
    ∃ bs, List.Forall₂ P l bs := by
  induction l with
  | nil => exact ⟨[], .nil⟩
  | cons a l ih =>
    obtain ⟨b, hb⟩ := h a List.mem_cons_self
    obtain ⟨bs, hbs⟩ := ih fun a' ha' => h a' (List.mem_cons_of_mem a ha')
    exact ⟨b :: bs, .cons hb hbs⟩

theorem payload_size_pos (req : SvuReq) : 0 < (payload_size req).toNat := by
  have hmtu : (if req.mtu > SVU_DATA_HDR then req.mtu else 256) > SVU_DATA_HDR := by
    split_ifs with h
    · exact h
    · decide
  have hlt := UInt32.lt_iff_toNat_lt.mp hmtu
  simp only [payload_size, hmtu, if_true]
  rw [UInt32.toNat_sub_of_le _ _ (UInt32.le_of_lt hmtu)]
  omega

section Clip

variable {total : UInt32}

theorem clip_le (iv : CiSvuInterval) : (clip total iv).2.toNat ≤ total.toNat := by
  unfold clip
  split_ifs with h
  · exact le_rfl
  · exact UInt32.le_iff_toNat_le.mp (UInt32.not_lt.mp h)

/-- Every interval the server blasts lies in the file. -/
theorem requested_inside {req : SvuReq} {r : UInt32 × UInt32} (hr : r ∈ requested total req) :
    r.1.toNat ≤ r.2.toNat ∧ r.2.toNat ≤ total.toNat := by
  unfold requested at hr
  split_ifs at hr with hall
  · obtain rfl := List.mem_singleton.mp hr
    exact ⟨Nat.zero_le _, le_rfl⟩
  · obtain ⟨hmem, hlt⟩ := List.mem_filter.mp hr
    obtain ⟨iv, -, rfl⟩ := List.mem_map.mp hmem
    have hlt := UInt32.lt_iff_toNat_lt.mp (of_decide_eq_true hlt)
    exact ⟨hlt.le, clip_le iv⟩

end Clip

section Loops

variable {src : List UInt8} {session mtu total pay : UInt32}

theorem blast_interval_eq (hpay : (if mtu > SVU_DATA_HDR then mtu - SVU_DATA_HDR else 1) = pay)
    {start end_ : UInt32} {chunks : List (UInt32 × UInt32)}
    (hrun : chunk_loop pay end_ (2 ^ 32) start = some chunks) :
    blast_interval session mtu src start end_ =
      some (chunks.map fun c => data_packet session src c.1 c.2) := by
  simp only [blast_interval, hpay, hrun, Option.map_some]

/-- The packets of the requested intervals are those of the loops, one after the other. -/
theorem blast_requested_eq (hpay : (if mtu > SVU_DATA_HDR then mtu - SVU_DATA_HDR else 1) = pay)
    {ivs : List CiSvuInterval} {groups : List (List (UInt32 × UInt32))}
    (hrun : List.Forall₂ (fun r chunks => chunk_loop pay r.2 (2 ^ 32) r.1 = some chunks)
      (clipped total ivs) groups) :
    blast_requested session mtu src total ivs =
      some (groups.flatten.map fun c => data_packet session src c.1 c.2) := by
  induction ivs generalizing groups with
  | nil =>
    cases hrun
    rfl
  | cons iv ivs ih =>
    rw [clipped, List.map_cons] at hrun
    rw [blast_requested]
    by_cases hlt : iv.start < if iv.end_ > total then total else iv.end_
    · rw [List.filter_cons_of_pos (by simpa [clip] using hlt)] at hrun
      obtain ⟨chunks, groups, hfirst, hrest, rfl⟩ := List.forall₂_cons_left_iff.mp hrun
      have hblast : blast_interval session mtu src iv.start (if iv.end_ > total then total else iv.end_) =
          some (chunks.map fun c => data_packet session src c.1 c.2) := blast_interval_eq hpay hfirst
      rw [ih hrest]
      simp only [if_pos hlt, hblast, List.flatten_cons, List.map_append]
    · rw [List.filter_cons_of_neg (by simpa [clip] using hlt)] at hrun
      rw [ih hrun]
      simp only [if_neg hlt, List.nil_append]

theorem serve_data_eq {req : SvuReq} {groups : List (List (UInt32 × UInt32))}
    (hrun : List.Forall₂ (fun r chunks => chunk_loop (payload_size req) r.2 (2 ^ 32) r.1 = some chunks)
      (requested total req) groups) :
    serve_data src total req = some (groups.flatten.map fun c => data_packet req.session_id src c.1 c.2) := by
  obtain ⟨mtu, hmtu⟩ : ∃ mtu, (if req.mtu > SVU_DATA_HDR then req.mtu else 256) = mtu := ⟨_, rfl⟩
  have hpay : (if mtu > SVU_DATA_HDR then mtu - SVU_DATA_HDR else 1) = payload_size req := by
    rw [← hmtu]
    rfl
  by_cases hall : req.nof_intervals = 0
  · rw [requested, if_pos hall] at hrun
    obtain ⟨chunks, rest, hfirst, hrest, rfl⟩ := List.forall₂_cons_left_iff.mp hrun
    cases hrest
    simp only [serve_data, hmtu, if_pos hall, List.flatten_singleton]
    exact blast_interval_eq hpay hfirst
  · rw [requested, if_neg hall] at hrun
    simp only [serve_data, hmtu, if_neg hall]
    exact blast_requested_eq hpay hrun

end Loops

section Interval

variable {src : List UInt8} {session total pay : UInt32} {r : UInt32 × UInt32}

/-- An interval that is answered is servable. -/
theorem Answers.servable {chunks : List (UInt32 × UInt32)} (h : Answers src session total r chunks)
    (hpay : 0 < pay.toNat) (hrun : chunk_loop pay r.2 (2 ^ 32) r.1 = some chunks) :
    Servable pay.toNat r := by
  have htotal := total.toNat_lt
  refine ⟨unwrapped_of_chunks pay r.2 hpay hrun fun c hc => ?_, ?_⟩
  · have hread := h.reads c hc
    omega
  · by_cases hlt : r.1 < r.2
    · obtain ⟨c, hc, hfirst⟩ := chunk_loop_first pay r.2 hrun hlt
      have hwrite := h.writes c hc
      omega
    · rw [UInt32.lt_iff_toNat_lt] at hlt
      omega

/-- A servable interval is answered by its loop. -/
theorem Servable.answers (session : UInt32) (hsrc : src.length = total.toNat) (hpay : 0 < pay.toNat)
    (hr : r.1.toNat ≤ r.2.toNat ∧ r.2.toNat ≤ total.toNat) (h : Servable pay.toNat r) :
    ∃ chunks, chunk_loop pay r.2 (2 ^ 32) r.1 = some chunks ∧ Answers src session total r chunks := by
  have hend := r.2.toNat_lt
  obtain ⟨hun, hsmall⟩ := h
  obtain ⟨chunks, hrun, hpieces, hstep⟩ := chunk_loop_pieces pay r.2 hpay (2 ^ 32) r.1 hr.1 hun (by omega)
  have hin (c : UInt32 × UInt32) (hc : c ∈ chunks) : r.1.toNat ≤ c.1.toNat ∧ 0 < c.2.toNat ∧
      c.1.toNat + c.2.toNat ≤ r.2.toNat ∧ c.2.toNat ≤ 2040 := by
    obtain ⟨hlo, hpos, hhi⟩ := hpieces.inside (piece c) (List.mem_map_of_mem hc)
    have hlen := hstep c hc
    change r.1.toNat ≤ c.1.toNat at hlo
    change c.1.toNat + c.2.toNat ≤ r.2.toNat at hhi
    exact ⟨hlo, hpos, hhi, by omega⟩
  have hfrag (c : UInt32 × UInt32) (hc : c ∈ chunks) :
      ∃ f, packet_fragment (data_packet session src c.1 c.2) = some f ∧ ∀ i,
        (f.write.Covers i ↔ c.1.toNat ≤ i ∧ i < c.1.toNat + c.2.toNat) ∧
        (f.write.Covers i → f.write.itemAt i = src[i]?) := by
    obtain ⟨hlo, hpos, hhi, hbuf⟩ := hin c hc
    obtain ⟨f, hf, hoff, hbytes⟩ := packet_fragment_data_packet session src c.1 hpos (by omega)
    rw [← hoff] at hbytes
    refine ⟨f, hf, fun i => ?_⟩
    have hslice := itemAt_slice (i := i) hbytes (by rw [hoff]; omega)
    rwa [hoff] at hslice
  refine ⟨chunks, hrun, ?_, ?_, ?_, ?_, ?_⟩
  · intro c hc
    have hc' := hin c hc
    omega
  · intro c hc
    have hc' := hin c hc
    omega
  · intro c hc
    have hc' := hin c hc
    exact length_data_packet session src c.1 (by omega)
  · intro c hc
    obtain ⟨f, hf, hcov⟩ := hfrag c hc
    have hc' := hin c hc
    refine ⟨f, hf, fun i hi => ⟨(hcov i).2 hi, ?_⟩⟩
    have hrange := (hcov i).1.mp hi
    omega
  · intro i hlo hhi
    have hone := hpieces.countP_eq_one hlo hhi
    rw [List.countP_map] at hone
    rw [List.countP_filterMap, List.countP_map, ← hone]
    apply List.countP_congr
    intro c hc
    obtain ⟨f, hf, hcov⟩ := hfrag c hc
    simp only [Function.comp_apply, hf, Option.map_some, Option.getD_some, decide_eq_true_eq, (hcov i).1]
    exact Iff.rfl

end Interval

theorem ServesExactly.servable {src : List UInt8} {total : UInt32} {req : SvuReq}
    (h : ServesExactly src total req) : ∀ r ∈ requested total req, Servable (payload_size req).toNat r := by
  obtain ⟨groups, hgroups, -⟩ := h
  have hserv : List.Forall₂ (fun r chunks => Servable (payload_size req).toNat r ∧
      chunk_loop (payload_size req) r.2 (2 ^ 32) r.1 = some chunks) (requested total req) groups :=
    hgroups.imp fun r chunks h => ⟨h.2.servable (payload_size_pos req) h.1, h.1⟩
  exact ((List.forall₂_and_left _ _).mp hserv).1

/-- The server answers a request exactly when each of its intervals is servable: no loop
    may wrap, and no packet may outgrow the buffer. -/
theorem serves_exactly_iff {src : List UInt8} {total : UInt32} (hsrc : src.length = total.toNat) (req : SvuReq) :
    ServesExactly src total req ↔ ∀ r ∈ requested total req, Servable (payload_size req).toNat r := by
  constructor
  · exact ServesExactly.servable
  · intro hserv
    obtain ⟨groups, hgroups⟩ := exists_forall₂ fun r hr =>
      (hserv r hr).answers req.session_id hsrc (payload_size_pos req) (requested_inside hr)
    exact ⟨groups, hgroups, serve_data_eq (hgroups.imp fun r chunks h => h.1)⟩

/-- A first request with the given packet size. -/
def first_request (mtu : UInt32) : SvuReq where
  magic := SVU_MAGIC_REQ
  session_id := 1
  mtu
  block_size := 0
  nof_intervals := 0
  client_addr := 0
  intervals := Vector.replicate SVU_MAX_INTERVALS ⟨0, 0⟩

theorem serves_exactly_iff_small : ServesExactly (List.replicate 2041 7) 2041 (first_request 256) ↔
    ∀ r ∈ requested 2041 (first_request 256), Servable (payload_size (first_request 256)).toNat r :=
  serves_exactly_iff (by rw [List.length_replicate]; rfl) (first_request 256)

/-- A request for packets of 4096 bytes is taken, and a file of 2041 bytes goes out in one
    packet beyond the buffer. -/
theorem serves_inexactly_large_mtu : ¬ ∀ (pkt : List UInt8) (req : SvuReq) (src : List UInt8) (total : UInt32),
    svu_req_decode pkt = some req → src.length = total.toNat → ServesExactly src total req := by
  intro hall
  have hdecode := svu_req_decode_encode (first_request 4096) rfl []
  have hserves := hall _ _ (List.replicate 2041 7) 2041 hdecode (by rw [List.length_replicate]; rfl)
  have hserv := hserves.servable (0, 2041) (by decide)
  revert hserv
  decide

end csp_intercept.svu_serve
