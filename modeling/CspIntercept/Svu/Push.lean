import CspIntercept.Svu.Daemon
import CspIntercept.Svu.Lossy

open csp_intercept.ci_svu csp_intercept.svu_proto csp_intercept.svu_serve csp_intercept.svu_session
  csp_intercept.svu_daemon

namespace csp_intercept.svu_apm

/-- The result of a slash command. -/
inductive SlashRc
  | success
  | einval
  | eio
deriving DecidableEq

/-- Why an upload is given up. -/
inductive SvuError
  | block_not_positive
  | bad_node
  | unknown_node
  | no_node
  | empty_path
  | cannot_read
  | no_thread
  | failed
deriving DecidableEq

def SvuError.rc : SvuError → SlashRc
  | block_not_positive | bad_node | unknown_node | no_node | empty_path => .einval
  | cannot_read | no_thread | failed => .eio

/-- The format of the message that is printed. -/
def SvuError.text : SvuError → String
  | block_not_positive => "svu: block must be positive\n"
  | bad_node => "svu: bad node in target '%s'\n"
  | unknown_node => "svu: unknown node '%s' (use a CSP address or a known host name; see `node`)\n"
  | no_node => "svu: no destination node set. Either set a default once with `node <addr>`\n     (e.g. `node 5426`) then `svu <src> <dest-path>`, or name it explicitly:\n     `svu <src> <node>:<dest-path>`.\n"
  | empty_path => "svu: empty dest path\n"
  | cannot_read => "svu: cannot read '%s'\n"
  | no_thread => "svu: failed to start serve thread\n"
  | failed => "svu: %s -> %u:%s  FAILED\n"

def COLON : UInt8 := 0x3A

def SLASH : UInt8 := 0x2F

/-- The offset of the first byte `c`. -/
def strchr (s : CString) (c : UInt8) : Option Nat := s.bytes.findIdx? (· == c)

/-- The first `n` bytes of a string. -/
def front (s : CString) (n : Nat) : CString := ⟨s.bytes.take n, fun h => s.nul_free (List.mem_of_mem_take h)⟩

/-- The string from its byte `n` on. -/
def back (s : CString) (n : Nat) : CString := ⟨s.bytes.drop n, fun h => s.nul_free (List.mem_of_mem_drop h)⟩

/-- The length of the node's name in a target, if the target names one: a colon in front
    of the first slash. -/
def node_length (target : CString) : Option Nat :=
  match strchr target COLON, strchr target SLASH with
  | none, _ => none
  | some nlen, none => some nlen
  | some nlen, some s => if nlen < s then some nlen else none

/-- The node and the path of a target `[<node>:]<dest-path>`, with the host table and the
    default node of the shell. -/
def svu_target (get_host_by_addr_or_name : CString → Option Int) (slash_dfl_node : UInt32) (target : CString) :
    Except SvuError (UInt16 × CString) :=
  match node_length target with
  | some nlen =>
    if nlen = 0 ∨ nlen ≥ 64 then .error .bad_node
    else match get_host_by_addr_or_name (front target nlen) with
      | none => .error .unknown_node
      | some addr =>
        let destpath := back target (nlen + 1)
        if destpath.bytes = [] then .error .empty_path else .ok (UInt16.ofInt addr, destpath)
  | none =>
    if slash_dfl_node = 0 then .error .no_node
    else if target.bytes = [] then .error .empty_path
    else .ok (slash_dfl_node.toUInt16, target)

/-- What the command meets before it announces the file: the shell's tables, the source
    file and its `st_mode`, whether the serve thread starts, whether the connection to
    the daemon opens, and whether there is a buffer for the announce. -/
structure Shell where
  get_host_by_addr_or_name : CString → Option Int
  slash_dfl_node : UInt32
  content : Option (List UInt8)
  st_mode : Option UInt32
  thread : Bool
  connected : Bool
  buffer : Bool

/-- The mode that is announced. -/
def Shell.mode (shell : Shell) (preserve : Bool) : UInt32 :=
  if preserve then match shell.st_mode with
    | some st_mode => st_mode &&& 0o7777
    | none => 0
  else 0

/-- The packet that hands the daemon the mode and the path. -/
def announce (mode : UInt32) (destpath : CString) : CspPacket where
  data := svu_announce_encode mode destpath 250
  length := UInt16.ofNat (svu_announce_encode mode destpath 250).length

/-- The far node: whether the announce and the reply get through, and what the daemon
    meets when it pulls. -/
structure FarNode where
  announce_arrives : Bool
  reply_arrives : Bool
  net : Network
  file : OutFile
  create_mode : UInt32
  chmod_ok : Bool
  buffer : Bool

def FarNode.push (far : FarNode) (ap : CspPacket) : Push :=
  { announce := ap, net := far.net, file := far.file, create_mode := far.create_mode, chmod_ok := far.chmod_ok,
    buffer := far.buffer }

section Target

variable {target : CString}

theorem bytes_front (s : CString) (n : Nat) : (front s n).bytes = s.bytes.take n := rfl

theorem bytes_back (s : CString) (n : Nat) : (back s n).bytes = s.bytes.drop n := rfl

theorem strchr_eq_some_iff {s : CString} {c : UInt8} {n : Nat} :
    strchr s c = some n ↔ s.bytes[n]? = some c ∧ ∀ j < n, s.bytes[j]? ≠ some c := by
  rw [strchr, List.findIdx?_eq_some_iff_getElem]
  constructor
  · rintro ⟨hn, hat, hbefore⟩
    refine ⟨by rw [List.getElem?_eq_getElem hn, eq_of_beq hat], fun j hj heq => ?_⟩
    obtain ⟨hj', heq⟩ := List.getElem?_eq_some_iff.mp heq
    exact hbefore j hj (by rw [heq]; exact beq_self_eq_true c)
  · rintro ⟨hat, hbefore⟩
    obtain ⟨hn, hat⟩ := List.getElem?_eq_some_iff.mp hat
    refine ⟨hn, by rw [hat]; exact beq_self_eq_true c, fun j hj heq => hbefore j hj ?_⟩
    rw [List.getElem?_eq_getElem (by omega), eq_of_beq heq]

theorem strchr_eq_none_iff {s : CString} {c : UInt8} : strchr s c = none ↔ c ∉ s.bytes := by
  rw [strchr, List.findIdx?_eq_none_iff]
  constructor
  · intro hall hmem
    have hne := hall c hmem
    rw [beq_self_eq_true] at hne
    cases hne
  · intro hnot b hb
    rw [beq_eq_false_iff_ne]
    rintro rfl
    exact hnot hb

/-- A name ends at the first colon, and has no slash. -/
theorem node_length_eq_some_iff {n : Nat} : node_length target = some n ↔
    ∃ name rest, target.bytes = name ++ COLON :: rest ∧ COLON ∉ name ∧ SLASH ∉ name ∧ name.length = n := by
  have hmem {l : List UInt8} {c : UInt8} : c ∈ l ↔ ∃ j : Nat, l[j]? = some c := List.mem_iff_getElem?
  constructor
  · intro h
    have hcolon : strchr target COLON = some n ∧ ∀ s, strchr target SLASH = some s → n < s := by
      rw [node_length] at h
      cases hc : strchr target COLON with
      | none =>
        rw [hc] at h
        cases h
      | some m =>
        cases hs : strchr target SLASH with
        | none =>
          rw [hc, hs] at h
          cases h
          exact ⟨rfl, fun s hs' => by cases hs'⟩
        | some s =>
          simp only [hc, hs] at h
          split_ifs at h with hlt
          cases h
          refine ⟨rfl, fun s' hs' => ?_⟩
          cases hs'
          exact hlt
    obtain ⟨hat, hbefore⟩ := strchr_eq_some_iff.mp hcolon.1
    obtain ⟨hn, hbyte⟩ := List.getElem?_eq_some_iff.mp hat
    have htake (j : Nat) (c : UInt8) (hj : (target.bytes.take n)[j]? = some c) : j < n ∧ target.bytes[j]? = some c := by
      rw [List.getElem?_take] at hj
      split_ifs at hj with hlt
      exact ⟨hlt, hj⟩
    refine ⟨target.bytes.take n, target.bytes.drop (n + 1), ?_, ?_, ?_, by rw [List.length_take]; omega⟩
    · rw [← hbyte, ← List.drop_eq_getElem_cons hn, List.take_append_drop]
    · rw [hmem]
      rintro ⟨j, hj⟩
      obtain ⟨hlt, hj⟩ := htake j _ hj
      exact hbefore j hlt hj
    · rw [hmem]
      rintro ⟨j, hj⟩
      obtain ⟨hlt, hj⟩ := htake j _ hj
      cases hs : strchr target SLASH with
      | none => exact strchr_eq_none_iff.mp hs (List.mem_of_getElem? hj)
      | some s =>
        have hns := hcolon.2 s hs
        exact (strchr_eq_some_iff.mp hs).2 j (by omega) hj
  · rintro ⟨name, rest, htarget, hcolon, hslash, rfl⟩
    have hfront (j : Nat) (c : UInt8) (hj : j < name.length) (hbyte : target.bytes[j]? = some c) : c ∈ name := by
      rw [htarget, List.getElem?_append_left hj] at hbyte
      exact List.mem_of_getElem? hbyte
    have hat : target.bytes[name.length]? = some COLON := by
      rw [htarget, List.getElem?_append_right (le_refl _), Nat.sub_self]
      rfl
    have hc : strchr target COLON = some name.length :=
      strchr_eq_some_iff.mpr ⟨hat, fun j hj hbyte => hcolon (hfront j _ hj hbyte)⟩
    rw [node_length, hc]
    cases hs : strchr target SLASH with
    | none => rfl
    | some s =>
      obtain ⟨hbyte, -⟩ := strchr_eq_some_iff.mp hs
      refine if_pos ?_
      by_contra hle
      rcases Nat.eq_or_lt_of_le (Nat.not_lt.mp hle) with rfl | hlt
      · rw [hat] at hbyte
        cases hbyte
      · exact hslash (hfront s _ hlt hbyte)

/-- Without a name every colon comes after a slash. -/
theorem node_length_eq_none_iff : node_length target = none ↔
    ∀ name rest, target.bytes = name ++ COLON :: rest → SLASH ∈ name := by
  constructor
  · intro hnone name rest htarget
    by_contra hslash
    have hfirst : ∃ n, node_length target = some n := by
      by_cases hcolon : COLON ∈ name
      · obtain ⟨a, b, rfl, ha⟩ := List.eq_append_cons_of_mem hcolon
        refine ⟨a.length, node_length_eq_some_iff.mpr ⟨a, b ++ COLON :: rest, ?_, ha, fun h => ?_, rfl⟩⟩
        · rw [htarget, List.append_assoc, List.cons_append]
        · exact hslash (List.mem_append_left _ h)
      · exact ⟨name.length, node_length_eq_some_iff.mpr ⟨name, rest, htarget, hcolon, hslash, rfl⟩⟩
    obtain ⟨n, hn⟩ := hfirst
    rw [hnone] at hn
    cases hn
  · intro hall
    cases hlen : node_length target with
    | none => rfl
    | some n =>
      obtain ⟨name, rest, htarget, -, hslash, -⟩ := node_length_eq_some_iff.mp hlen
      exact absurd (hall name rest htarget) hslash

/-- What is accepted as a target, and what it is taken to mean. -/
theorem svu_target_ok_iff (get_host_by_addr_or_name : CString → Option Int) (slash_dfl_node : UInt32)
    (target : CString) (node : UInt16) (path : CString) :
    svu_target get_host_by_addr_or_name slash_dfl_node target = .ok (node, path) ↔
      (∃ name : CString, ∃ addr, target.bytes = name.bytes ++ COLON :: path.bytes ∧
        COLON ∉ name.bytes ∧ SLASH ∉ name.bytes ∧ 0 < name.bytes.length ∧ name.bytes.length < 64 ∧
        path.bytes ≠ [] ∧ get_host_by_addr_or_name name = some addr ∧ node = UInt16.ofInt addr) ∨
      ((∀ name rest, target.bytes = name ++ COLON :: rest → SLASH ∈ name) ∧ target.bytes ≠ [] ∧ path = target ∧
        slash_dfl_node ≠ 0 ∧ node = slash_dfl_node.toUInt16) := by
  cases hlen : node_length target with
  | none =>
    have hall := node_length_eq_none_iff.mp hlen
    have hnot : ¬ ∃ name : CString, ∃ addr, target.bytes = name.bytes ++ COLON :: path.bytes ∧
        COLON ∉ name.bytes ∧ SLASH ∉ name.bytes ∧ 0 < name.bytes.length ∧ name.bytes.length < 64 ∧
        path.bytes ≠ [] ∧ get_host_by_addr_or_name name = some addr ∧ node = UInt16.ofInt addr := by
      rintro ⟨name, addr, htarget, -, hslash, -⟩
      exact hslash (hall name.bytes path.bytes htarget)
    rw [or_iff_right hnot, and_iff_right hall, svu_target, hlen]
    simp only
    split_ifs with hdfl hempty
    · exact iff_of_false (by simp) fun h => h.2.2.1 hdfl
    · exact iff_of_false (by simp) fun h => h.1 hempty
    · rw [Except.ok.injEq, Prod.mk.injEq]
      constructor
      · rintro ⟨rfl, rfl⟩
        exact ⟨hempty, rfl, hdfl, rfl⟩
      · rintro ⟨-, rfl, -, rfl⟩
        exact ⟨rfl, rfl⟩
  | some n =>
    obtain ⟨name, rest, htarget, hcolon, hslash, rfl⟩ := node_length_eq_some_iff.mp hlen
    have hfront : (front target name.length).bytes = name := by
      rw [bytes_front, htarget]
      exact List.take_left
    have hback : (back target (name.length + 1)).bytes = rest := by
      rw [bytes_back, htarget, ← List.drop_drop, List.drop_left]
      rfl
    have hnot : ¬ ((∀ name rest, target.bytes = name ++ COLON :: rest → SLASH ∈ name) ∧ target.bytes ≠ [] ∧
        path = target ∧ slash_dfl_node ≠ 0 ∧ node = slash_dfl_node.toUInt16) :=
      fun h => hslash (h.1 name rest htarget)
    rw [or_iff_left hnot, svu_target, hlen]
    simp only
    constructor
    · intro hok
      cases hhost : get_host_by_addr_or_name (front target name.length) with
      | none =>
        rw [hhost] at hok
        split_ifs at hok
      | some addr =>
        simp only [hhost, hback] at hok
        split_ifs at hok with hbad hempty
        obtain ⟨rfl, rfl⟩ := Prod.mk.inj (Except.ok.inj hok)
        refine ⟨front target name.length, addr, ?_, ?_, ?_, ?_, ?_, ?_, hhost, rfl⟩
        · rw [hfront, hback, htarget]
        · rwa [hfront]
        · rwa [hfront]
        · rw [hfront]
          omega
        · rw [hfront]
          omega
        · rwa [hback]
    · rintro ⟨name', addr, htarget', hcolon', hslash', hpos, hshort, hpath, hhost, rfl⟩
      have hlen' := node_length_eq_some_iff.mpr ⟨name'.bytes, path.bytes, htarget', hcolon', hslash', rfl⟩
      have hsame : name.length = name'.bytes.length := Option.some.inj (hlen.symm.trans hlen')
      rw [htarget'] at htarget
      obtain ⟨rfl, hrest⟩ := List.append_inj htarget hsame.symm
      obtain rfl := (List.cons.inj hrest).2
      have hname : front target name'.bytes.length = name' := CString.ext hfront
      have hdest : back target (name'.bytes.length + 1) = path := CString.ext hback
      rw [if_neg (by omega), hname, hhost, hdest]
      simp only [hpath, if_false]

end Target

section EndToEnd

/-- The daemon's file opens, and its pull brings everything in time. -/
def FarNode.Pulls (far : FarNode) (src : List UInt8) : Prop :=
  far.file.fopen_ok = true ∧ ∃ r < 500, Completes far.net src (UInt32.ofNat src.length) 4096 256 r

/-- The upload gets as far as the daemon's pull, and that succeeds. -/
def Delivers (shell : Shell) (far : FarNode) (src : List UInt8) : Prop :=
  shell.thread = true ∧ shell.connected = true ∧ shell.buffer = true ∧ far.announce_arrives = true ∧ far.Pulls src

section

variable {shell : Shell} {block : Int} {preserve : Bool} {target path : CString} {node : UInt16} {far : FarNode}
  {src : List UInt8}

section Pull

variable (hserved : Served src (UInt32.ofNat src.length) (UInt32.ofInt block) 256)
  (hnet : LossyNetwork far.net src (UInt32.ofNat src.length) (UInt32.ofInt block) 4096 256)
  (ap : CspPacket)
include hserved hnet

end Pull

end

end EndToEnd

section Example

end Example

end csp_intercept.svu_apm
