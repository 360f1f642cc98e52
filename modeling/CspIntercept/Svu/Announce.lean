import CspIntercept.Svu.Proto
import Mathlib.Data.List.TakeWhile

namespace csp_intercept.svu_proto

/-- A C string: none of its bytes is NUL. -/
@[ext] structure CString where
  bytes : List UInt8
  nul_free : 0 ∉ bytes
deriving DecidableEq

/-- The string in a buffer that is terminated behind its last byte. -/
def c_string (buf : List UInt8) : CString where
  bytes := buf.takeWhile (· ≠ 0)
  nul_free := by
    intro hmem
    have hne := List.mem_takeWhile_imp hmem
    simp at hne

def SVU_PUSH_MAGIC : UInt32 := 0x53565550

/-- Encode a push announce: path-only for mode 0, else `[magic][mode][path]`. -/
def svu_announce_encode (mode : UInt32) (path : CString) (bufcap : Nat) : List UInt8 :=
  let plen := path.bytes.length
  if mode = 0 then
    let plen := if plen > bufcap then bufcap else plen
    path.bytes.take plen
  else
    let plen := if plen + 8 > bufcap then (if bufcap > 8 then bufcap - 8 else 0) else plen
    svu_put32 SVU_PUSH_MAGIC ++ svu_put32 mode ++ path.bytes.take plen

/-- Decode a push announce to the mode and the string in the path array, which is left
    alone when it has no room. -/
def svu_announce_decode (buf : List UInt8) (pathcap : Nat) : UInt32 × Option CString :=
  let (mode, psrc) :=
    if buf.length ≥ 8 ∧ svu_get32 buf 0 = SVU_PUSH_MAGIC then (svu_get32 buf 4, buf.drop 8)
    else (0, buf)
  if pathcap = 0 then (mode, none)
  else
    let plen := if psrc.length ≥ pathcap then pathcap - 1 else psrc.length
    (mode, some (c_string (psrc.take plen)))

/-- What the daemon makes of the announce of the pusher, with the capacities they use. -/
def announced (mode : UInt32) (path : CString) : UInt32 × Option CString :=
  svu_announce_decode (svu_announce_encode mode path 250) 256

/-- A legacy announce must not begin with the magic bytes "PUVS" and the room of a mode,
    and either form must fit the announce buffer. -/
def Announceable (mode : UInt32) (path : CString) : Prop :=
  if mode = 0 then
    path.bytes.length ≤ 250 ∧ ¬ (8 ≤ path.bytes.length ∧ [0x50, 0x55, 0x56, 0x53] <+: path.bytes)
  else path.bytes.length ≤ 242

section Strings

variable {bs : List UInt8} {path : CString}

theorem c_string_of_nul_free (h : 0 ∉ bs) : (c_string bs).bytes = bs := by
  apply List.takeWhile_eq_self_iff.mpr
  intro b hb
  have hne : b ≠ 0 := ne_of_mem_of_not_mem hb h
  exact decide_eq_true hne

theorem c_string_bytes (path : CString) : c_string path.bytes = path :=
  CString.ext (c_string_of_nul_free path.nul_free)

theorem length_c_string (bs : List UInt8) : (c_string bs).bytes.length ≤ bs.length :=
  (List.takeWhile_prefix _).length_le

/-- A buffer starts with the magic word exactly when it starts with its bytes. -/
theorem svu_get32_magic_iff (hlen : 8 ≤ bs.length) :
    svu_get32 bs 0 = SVU_PUSH_MAGIC ↔ [0x50, 0x55, 0x56, 0x53] <+: bs := by
  have hmagic : svu_put32 SVU_PUSH_MAGIC = [0x50, 0x55, 0x56, 0x53] := by decide
  constructor
  · intro h
    have hfront := svu_put32_get32 (p := bs) (i := 0) (by omega)
    rw [h, hmagic, List.drop_zero] at hfront
    rw [hfront]
    exact List.take_prefix 4 bs
  · rintro ⟨rest, rfl⟩
    rw [← hmagic]
    exact svu_get32_put32 SVU_PUSH_MAGIC rest

end Strings

section Announce

variable {mode : UInt32} {path : CString}

/-- The new form: the mode arrives, and the path as far as it fits. -/
theorem announced_mode (hmode : mode ≠ 0) :
    announced mode path = (mode, some (c_string (path.bytes.take 242))) := by
  obtain ⟨sent, hsent⟩ : ∃ sent, svu_announce_encode mode path 250 = sent := ⟨_, rfl⟩
  have hplen : path.bytes.take (if path.bytes.length + 8 > 250 then 242 else path.bytes.length) =
      path.bytes.take 242 := by
    split_ifs with hlong
    · rfl
    · rw [List.take_of_length_le le_rfl, List.take_of_length_le (by omega)]
  have hform : sent = svu_put32 SVU_PUSH_MAGIC ++ (svu_put32 mode ++ path.bytes.take 242) := by
    rw [← hsent, svu_announce_encode, if_neg hmode, ← hplen, List.append_assoc]
    rfl
  have hmagic : svu_get32 sent 0 = SVU_PUSH_MAGIC := by
    rw [hform]
    exact svu_get32_put32 SVU_PUSH_MAGIC (svu_put32 mode ++ path.bytes.take 242)
  have hword : svu_get32 sent 4 = mode := by
    rw [hform]
    exact svu_get32_put32 mode (path.bytes.take 242)
  have hdrop : sent.drop 8 = path.bytes.take 242 := by
    rw [hform]
    rfl
  have hlen : sent.length ≥ 8 := by
    rw [hform, List.length_append, List.length_append]
    simp only [length_svu_put32]
    omega
  have hroom : ¬ (path.bytes.take 242).length ≥ 256 := by
    rw [List.length_take]
    omega
  have hif : sent.length ≥ 8 ∧ svu_get32 sent 0 = SVU_PUSH_MAGIC := ⟨hlen, hmagic⟩
  rw [announced, hsent, svu_announce_decode]
  simp only [if_pos hif, hword, hdrop, if_neg hroom, List.take_length]
  rfl

/-- The legacy form is as much of the path as fits. -/
theorem announce_encode_legacy (path : CString) : svu_announce_encode 0 path 250 = path.bytes.take 250 := by
  simp only [svu_announce_encode, if_true]
  split_ifs with hlong
  · rfl
  · rw [List.take_of_length_le le_rfl, List.take_of_length_le (by omega)]

theorem announced_legacy
    (hplain : ¬ ((path.bytes.take 250).length ≥ 8 ∧ svu_get32 (path.bytes.take 250) 0 = SVU_PUSH_MAGIC)) :
    announced 0 path = (0, some (c_string (path.bytes.take 250))) := by
  have hroom : ¬ (path.bytes.take 250).length ≥ 256 := by
    rw [List.length_take]
    omega
  rw [announced, announce_encode_legacy, svu_announce_decode]
  simp only [if_neg hplain, if_neg hroom, List.take_length]
  rfl

/-- A legacy announce that looks like the new form loses at least the bytes of its header. -/
theorem announced_misread
    (hmagic : (path.bytes.take 250).length ≥ 8 ∧ svu_get32 (path.bytes.take 250) 0 = SVU_PUSH_MAGIC) :
    ∃ read, (announced 0 path).2 = some read ∧ read.bytes.length + 8 ≤ path.bytes.length := by
  have hlen := hmagic.1
  rw [List.length_take] at hlen
  have hroom : ¬ ((path.bytes.take 250).drop 8).length ≥ 256 := by
    rw [List.length_drop, List.length_take]
    omega
  refine ⟨c_string ((path.bytes.take 250).drop 8), ?_, ?_⟩
  · rw [announced, announce_encode_legacy, svu_announce_decode]
    simp only [if_pos hmagic, if_neg hroom, List.take_length]
    rfl
  · have hle := length_c_string ((path.bytes.take 250).drop 8)
    rw [List.length_drop, List.length_take] at hle
    omega

theorem announced_of_announceable (h : Announceable mode path) : announced mode path = (mode, some path) := by
  unfold Announceable at h
  split_ifs at h with hmode
  · obtain ⟨hlen, hplain⟩ := h
    have hwhole : path.bytes.take 250 = path.bytes := List.take_of_length_le hlen
    subst hmode
    rw [announced_legacy, hwhole, c_string_bytes]
    rw [hwhole]
    rintro ⟨hlong, hmagic⟩
    exact hplain ⟨hlong, (svu_get32_magic_iff hlong).mp hmagic⟩
  · rw [announced_mode hmode, List.take_of_length_le h, c_string_bytes]

/-- Only an announceable path arrives, whatever the mode that comes with it. -/
theorem announceable_of_announced (h : (announced mode path).2 = some path) : Announceable mode path := by
  unfold Announceable
  split_ifs with hmode
  · subst hmode
    by_cases hmagic : (path.bytes.take 250).length ≥ 8 ∧ svu_get32 (path.bytes.take 250) 0 = SVU_PUSH_MAGIC
    · obtain ⟨read, hread, hshort⟩ := announced_misread hmagic
      obtain rfl := Option.some.inj (hread.symm.trans h)
      omega
    · rw [announced_legacy hmagic] at h
      have hpath := Option.some.inj h
      have hlen := length_c_string (path.bytes.take 250)
      rw [hpath, List.length_take] at hlen
      have hfits : path.bytes.length ≤ 250 := by omega
      rw [List.take_of_length_le hfits] at hmagic
      refine ⟨hfits, fun hbad => hmagic ⟨hbad.1, ?_⟩⟩
      exact (svu_get32_magic_iff hbad.1).mpr hbad.2
  · rw [announced_mode hmode] at h
    have hpath := Option.some.inj h
    have hlen := length_c_string (path.bytes.take 242)
    rw [hpath, List.length_take] at hlen
    omega

end Announce

/-- The daemon reads the pusher's mode and path exactly when the announce has room for them
    and is not mistaken for the other form, and in no other case even the path alone. -/
theorem announced_iff (mode : UInt32) (path : CString) :
    (announced mode path = (mode, some path) ↔ Announceable mode path) ∧
      ((announced mode path).2 = some path ↔ Announceable mode path) := by
  refine ⟨⟨fun h => ?_, announced_of_announceable⟩, ⟨announceable_of_announced, fun h => ?_⟩⟩
  · exact announceable_of_announced (congrArg Prod.snd h)
  · rw [announced_of_announceable h]

/-- A path of 251 bytes is cut, and the file written elsewhere. -/
theorem announced_long_path : ¬ ∀ (mode : UInt32) (path : CString), mode ≤ 4095 → path.bytes ≠ [] →
    announced mode path = (mode, some path) := by
  intro hall
  have hnul : (0 : UInt8) ∉ List.replicate 251 0x61 := fun h => absurd (List.eq_of_mem_replicate h) (by decide)
  have harrives := hall 0 ⟨List.replicate 251 0x61, hnul⟩ (by decide) (List.cons_ne_nil _ _)
  have hfits := announceable_of_announced (congrArg Prod.snd harrives)
  have hlen := hfits.1
  rw [List.length_replicate] at hlen
  omega

end csp_intercept.svu_proto
