import CspIntercept.Lib.Keyed
import CspIntercept.Lib.Transducer
import CspIntercept.Svu.Announce
import CspIntercept.Svu.WriteOut

open csp_intercept.ci_svu csp_intercept.svu_proto csp_intercept.svu_serve csp_intercept.svu_session

namespace csp_intercept.svu_daemon

/-- A regular file. -/
structure DiskFile where
  bytes : List UInt8
  mode : UInt32
deriving DecidableEq

/-- What one push meets: the announce that is read, the network of the pull, the output
    file, and whether `chmod` works and a buffer is to be had for the reply. -/
structure Push where
  announce : CspPacket
  net : Network
  file : OutFile
  /-- The permission bits `fopen` gives a file it creates. -/
  create_mode : UInt32
  chmod_ok : Bool
  buffer : Bool

/-- The mode and the path the daemon reads, with its array of 256 bytes. -/
def Push.read (p : Push) : UInt32 × CString :=
  let read := svu_announce_decode (p.announce.data.take p.announce.length.toNat) 256
  (read.1, read.2.getD ⟨[], List.not_mem_nil⟩)

def Push.mode (p : Push) : UInt32 := p.read.1

def Push.path (p : Push) : CString := p.read.2

/-- `svu_client_run(src, 4096, 256, 500, path)`. -/
def Push.pull (p : Push) : Int × Option (List UInt8) := svu_client_run p.net p.file 4096 256 500

section Effect

/-- The file a push that succeeds leaves, given the one there was. -/
def Push.result (p : Push) (old : Option DiskFile) : DiskFile where
  bytes := p.pull.2.getD []
  mode :=
    if p.mode ≠ 0 ∧ p.chmod_ok then p.mode &&& 0o7777
    else old.elim p.create_mode DiskFile.mode

/-- The push was answered with VERIFIED, as far as the daemon is concerned. -/
def Push.Succeeds (p : Push) : Prop := p.pull.1 = 0

instance (p : Push) : Decidable p.Succeeds := inferInstanceAs (Decidable (_ = _))

end Effect

section Run

/-- Whatever the pull verifies, the disk has room for. -/
def Push.StoresAll (p : Push) : Prop :=
  ∀ x, LoopVerifies p.net 4096 256 500 x → x.total.toNat ≤ p.file.on_disk

/-- A push that succeeds on a good disk delivers the verified bytes. -/
theorem Push.Succeeds.verified {p : Push} (h : p.Succeeds) (hdisk : p.StoresAll) (old : Option DiskFile) :
    FileVerified p.net 4096 256 (some (p.result old).bytes) := by
  have hrc : (svu_client_run p.net p.file 4096 256 500).1 = 0 := h
  rcases svu_client_run_cases p.net p.file 4096 256 500 with ⟨hrun, -⟩ | ⟨x, s, hloop, hrecv, hrun⟩
  · rw [hrun] at hrc
    cases hrc
  · obtain ⟨reply, s₀, ws, s', hreply, hnew, hrecv', htotal, hreach, hverified⟩ := hloop.inv.receiver
    obtain rfl : s = s' := Option.some.inj (hrecv.symm.trans hrecv')
    have hgood := hverified hloop.2
    have hall := hdisk x hloop
    have hpull : p.pull = write_out p.file s x.total := hrun
    have hrc' : (write_out p.file s x.total).1 = 0 := by rwa [hrun] at hrc
    have hopen : p.file.fopen_ok = true := by
      by_contra hclosed
      rw [write_out, if_neg hclosed] at hrc'
      cases hrc'
    refine ⟨reply, s.data, hreply, ?_, hgood⟩
    rw [htotal, ← hgood.1] at hall
    have hbytes : (p.result old).bytes = p.pull.2.getD [] := rfl
    rw [hbytes, hpull, write_out, if_pos hopen, ci_svu_data, htotal, ← hgood.1, List.take_length, Option.getD_some,
      List.take_of_length_le hall]

end Run

end csp_intercept.svu_daemon
