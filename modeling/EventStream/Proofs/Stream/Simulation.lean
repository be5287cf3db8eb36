import EventStream.Proofs.Stream.Mirror
import EventStream.Proofs.Stream.Schedule

/-!
A codec and an assembler in step: whatever is appended to the buffer of the one is fed to the
other, and each item is asked of both. They give the same items, hold the same bytes, and the end
of the stream means the same to both.
-/

set_option autoImplicit false

namespace EventStream.Stream

namespace Codec

/-- What the owner of a buffer does until its end. -/
inductive Call where
  | append (bytes : Bytes)
  | decode
  deriving DecidableEq, Repr

namespace Call

def bytes : Call → Bytes
  | append chunk => chunk
  | decode => []

/-- The operation of an assembler that stands for a call: an item is asked for by taking one. -/
def mirrored : Call → Op
  | append chunk => .feed chunk
  | decode => .take 1

end Call

def perform (s : Codec × Bytes) : Call → Codec × Bytes
  | .append chunk => (s.1, s.2 ++ chunk)
  | .decode => (s.1.decode s.2).2

def after (config : Frame.Config) (calls : List Call) : Codec × Bytes :=
  calls.foldl perform ({ config }, [])

variable {c : Codec} {buffer : Bytes}

theorem decodeEnd_of_some {item : Item} (h : (c.decode buffer).1 = some item) :
    c.decodeEnd buffer = (.ok (some item), (c.decode buffer).2) := by
  rw [decodeEnd]
  generalize c.decode buffer = r at h
  obtain ⟨found, c', rest⟩ := r
  cases h
  rfl

theorem decodeEnd_of_none (h : (c.decode buffer).1 = none) :
    (c.decodeEnd buffer).1 = (if (c.decode buffer).2.2.isEmpty then .ok none else
      .error (.truncated (c.decode buffer).2.2.length
        (missingBytes (c.decode buffer).2.1.skip (c.decode buffer).2.2))) ∧
    (c.decodeEnd buffer).2 = ({ (c.decode buffer).2.1 with skip := 0 }, []) := by
  rw [decodeEnd]
  generalize c.decode buffer = r at h
  obtain ⟨found, c', rest⟩ := r
  cases h
  simp only
  split <;> exact ⟨rfl, rfl⟩

end Codec

namespace Mirrors

variable {c : Codec} {buffer : Bytes} {a : Assembler}

/-- An item taken from an assembler is the one that the codec decodes. -/
theorem drainSome_one (h : Mirrors c buffer a) (ha : a.state ≠ .closed) :
    (a.drainSome 1).1 = (c.decode buffer).1.toList ∧
      Mirrors (c.decode buffer).2.1 (c.decode buffer).2.2 (a.drainSome 1).2 := by
  obtain ⟨hitem, hnext⟩ := h.decode ha
  rw [hitem]
  cases hn : a.next.1 with
  | none =>
    rw [Assembler.drainSome_one_of_none hn]
    exact ⟨rfl, hnext.settle⟩
  | some item =>
    rw [Assembler.drainSome_one_of_some hn]
    exact ⟨rfl, hnext.settle⟩

/-- Without an item left, the end means to a codec what it means to its assembler. -/
theorem decodeEnd_eq_finish {b : Assembler} (h : Mirrors (c.decode buffer).2.1 (c.decode buffer).2.2 b)
    (hnone : (c.decode buffer).1 = none) (hb : b.state ≠ .closed) (hi : b.IsIdle) :
    (c.decodeEnd buffer).1 = b.finish.1.map fun _ => none := by
  obtain ⟨-, hskip, hbuffer⟩ := h
  rw [(Codec.decodeEnd_of_none hnone).1, Assembler.finish_of_idle hb hi, Assembler.ending, ← hbuffer]
  by_cases he : (c.decode buffer).2.2.isEmpty = true
  · rw [if_pos he, if_pos he]
    rfl
  · have hz : b.skip = 0 := by
      rcases segment_eq_none hi with ⟨-, hu⟩ | ⟨hz, -⟩
      · exact absurd (List.isEmpty_iff.2 (hbuffer.trans hu)) he
      · exact hz
    rw [if_neg he, if_neg he, hskip, hz]
    rfl

end Mirrors

namespace History

open Assembler

variable {h : History} {found : List Finding} {s : Codec × Bytes}

/-- Each call keeps a codec and an assembler in step. -/
theorem Receiving.mirror (hr : h.Receiving found) (hm : Mirrors s.1 s.2 h.assembler)
    (call : Codec.Call) :
    (∃ more, (h.perform call.mirrored).Receiving (found ++ more)) ∧
      Mirrors (Codec.perform s call).1 (Codec.perform s call).2
        (h.perform call.mirrored).assembler := by
  cases call with
  | append chunk =>
    have hop : Op.feed chunk ≠ .finish := Op.noConfusion
    refine ⟨(hr.perform hop).1, ?_⟩
    obtain ⟨b, hb⟩ := exists_feed chunk hr.undrained hr.state
    have hperform : (h.perform (.feed chunk)).assembler = b := by
      rw [History.perform, hb]
    rw [Codec.Call.mirrored, hperform]
    exact hm.feed hr.progress.bounded hb
  | decode =>
    have hop : Op.take 1 ≠ .finish := Op.noConfusion
    exact ⟨(hr.perform hop).1, (hm.drainSome_one hr.state).2⟩

theorem after_mirrors (config : Assembler.Config) (calls : List Codec.Call) :
    (∃ found, (run config (calls.map Codec.Call.mirrored)).Receiving found) ∧
      Mirrors (Codec.after config.frame calls).1 (Codec.after config.frame calls).2
        (run config (calls.map Codec.Call.mirrored)).assembler := by
  induction calls using List.reverseRecOn with
  | nil => exact ⟨⟨[], start_open config, State.noConfusion⟩, .fresh config⟩
  | append_singleton calls call ih =>
    obtain ⟨⟨found, hr⟩, hm⟩ := ih
    obtain ⟨⟨more, hmore⟩, hcall⟩ := hr.mirror hm call
    rw [List.map_append, List.map_singleton, run_concat, Codec.after, List.foldl_concat]
    exact ⟨⟨found ++ more, hmore⟩, hcall⟩

/-- Chunks are fed to the assembler as they are appended to the buffer. -/
theorem fedBytes_mirrored (calls : List Codec.Call) :
    fedBytes (calls.map Codec.Call.mirrored) = calls.flatMap Codec.Call.bytes := by
  rw [fedBytes, List.flatMap_map]
  exact congrArg (calls.flatMap ·) (funext fun call => by cases call <;> rfl)

theorem Receiving.idle_of_none (hr : h.Receiving found) (hnone : (h.assembler.drainSome 1).1 = []) :
    (h.assembler.drainSome 1).2.IsIdle := by
  obtain ⟨more, hitems, -, hidle⟩ := hr.progress.drainSome hr.state 1
  apply hidle
  rw [← List.length_map Finding.item, ← hitems, hnone]
  exact Nat.one_pos

/-- A codec on a buffer does what an assembler does that is fed and asked in the same order: it
gives the same item or none, holds the same bytes, and has as many to skip. The end means to the
codec what taking one more item, and finishing if there is none, means to the assembler: the same
item, or no error where that finishes without one, or the same error; then nothing is left. -/
theorem codec_simulates_assembler (config : Assembler.Config) (calls : List Codec.Call) :
    let h := run config (calls.map Codec.Call.mirrored)
    let s := Codec.after config.frame calls
    let taken := h.assembler.drainSome 1
    let decoded := s.1.decode s.2
    let ended := s.1.decodeEnd s.2
    h.fed = calls.flatMap Codec.Call.bytes ∧
    s.2 = h.assembler.unread ∧ s.1.skip = h.assembler.skip ∧
    taken.1 = decoded.1.toList ∧
    decoded.2.2 = taken.2.unread ∧ decoded.2.1.skip = taken.2.skip ∧
    (∀ item, taken.1 = [item] → ended = (.ok (some item), decoded.2)) ∧
    (taken.1 = [] →
      (ended.1 = .ok none ∨ ∃ buffered missing, ended.1 = .error (.truncated buffered missing)) ∧
      (ended.1 = .ok none ↔ taken.2.finish.1 = .ok ()) ∧
      (∀ buffered missing, ended.1 = .error (.truncated buffered missing) ↔
        taken.2.finish.1 = .error (.truncated buffered missing)) ∧
      ended.2.2 = [] ∧ ended.2.1.skip = 0 ∧
      taken.2.finish.2.unread = [] ∧ taken.2.finish.2.skip = 0) := by
  intro h s taken decoded ended
  obtain ⟨⟨found, hr⟩, hm⟩ := after_mirrors config calls
  have hops : Op.finish ∉ calls.map Codec.Call.mirrored := by
    intro hmem
    obtain ⟨call, -, hcall⟩ := List.mem_map.1 hmem
    cases call <;> cases hcall
  have hfed := (run_receiving config _ hops).2
  obtain ⟨htaken, hafter⟩ : taken.1 = decoded.1.toList ∧ _ := hm.drainSome_one hr.state
  refine ⟨hfed.trans (fedBytes_mirrored calls), hm.buffer, hm.skip, htaken, hafter.buffer,
    hafter.skip, ?_, ?_⟩
  · intro item hone
    exact Codec.decodeEnd_of_some (Option.toList_eq_singleton_iff.1 (htaken.symm.trans hone))
  · intro hnone
    have hdecoded : decoded.1 = none := Option.toList_eq_nil_iff.1 (htaken.symm.trans hnone)
    have hopen : taken.2.state ≠ .closed := by
      rw [drainSome_state]
      exact hr.state
    have hidle : taken.2.IsIdle := hr.idle_of_none hnone
    have hended : ended.1 = taken.2.finish.1.map fun _ => none :=
      hafter.decodeEnd_eq_finish hdecoded hopen hidle
    obtain ⟨-, hleft⟩ := Codec.decodeEnd_of_none hdecoded
    have hfinish := finish_of_idle hopen hidle
    rw [hended, hfinish]
    refine ⟨?_, ?_, ?_, congrArg Prod.snd hleft, congrArg (Codec.skip ∘ Prod.fst) hleft, rfl, rfl⟩
    all_goals
      rw [ending]
      split <;> simp [Except.map]

end History

end EventStream.Stream
