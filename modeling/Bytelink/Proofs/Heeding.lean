import Bytelink.Host.Machine
import Bytelink.Proofs.Cancellation

/-!
# The machine heeds its tokens

No act on a system gets to the cancel tokens: a schedule keeps them, and the only task that touches
them sets one. So a token that is set stays set whatever runs, for however long it runs, and the
machine, which looks at the tokens before it starts anything, is a host that heeds each of them.
-/
namespace Bytelink

theorem Tokens.isCancelled_cancel {s : Tokens} {token : Token} (t : Token)
    (h : s.isCancelled token = true) : (s.cancel t).isCancelled token = true := by
  simp only [isCancelled, cancel, List.contains_eq_mem, decide_eq_true_eq] at h ⊢
  exact List.mem_cons_of_mem _ h

namespace Schedule

variable {c : Schedule} {token : Token}

theorem isCancelled_runSlice (pid fuel : Nat) (p : Process)
    (h : c.tokens.isCancelled token = true) :
    (runSlice pid fuel c p).1.tokens.isCancelled token = true := by
  induction fuel generalizing c p with
  | zero => simpa only [runSlice] using h
  | succ fuel ih =>
      cases p with
      | ended => simpa only [runSlice] using h
      | pause nanos next => simpa only [runSlice] using h
      | act step =>
          simp only [runSlice]
          split
          · apply ih
            exact h
          · exact h
      | block isReady next =>
          simp only [runSlice]
          split
          · exact ih next h
          · exact h
      | spawn child next =>
          simp only [runSlice]
          apply ih
          exact h
      | trigger t next =>
          simp only [runSlice]
          apply ih
          exact Tokens.isCancelled_cancel t h

theorem isCancelled_resume (t : Task) (others : List Task) (h : c.tokens.isCancelled token = true) :
    (c.resume t others).tokens.isCancelled token = true := by
  apply isCancelled_runSlice
  exact h

theorem isCancelled_run (isDone : System → Bool) (deadline? : Option Nat) (fuel : Nat)
    (h : c.tokens.isCancelled token = true) :
    (c.run isDone deadline? fuel).tokens.isCancelled token = true := by
  induction fuel generalizing c with
  | zero => simpa only [run] using h
  | succ fuel ih =>
      simp only [run]
      split
      · exact h
      · split
        · cases deadline? <;> exact h
        · split
          · cases deadline? <;> exact h
          · apply ih
            apply isCancelled_resume
            exact h

end Schedule

namespace Machine

variable {m : Machine} {token : Token}

theorem isCancelled_runUntil (isDone : System → Bool) (deadline? : Option Nat)
    (h : m.tokens.isCancelled token = true) :
    (m.runUntil isDone deadline?).tokens.isCancelled token = true :=
  Schedule.isCancelled_run isDone deadline? _ h

theorem tokens_handle (p : Launched) (handled : List Handling) (m : Machine) :
    (handled.foldl (handle p) m).tokens = m.tokens := by
  induction handled generalizing m with
  | nil => rfl
  | cons handling rest ih =>
      have hhandle : (handle p m handling).tokens = m.tokens := by cases handling <;> rfl
      rw [List.foldl_cons, ih, hhandle]

theorem isCancelled_watchProgram (p : Launched) (fuel number : Nat)
    (h : m.tokens.isCancelled token = true) :
    (watchProgram p fuel number m).2.tokens.isCancelled token = true := by
  induction fuel generalizing number m with
  | zero => simpa only [watchProgram] using h
  | succ fuel ih =>
      have hhandled : ∀ (handled : List Handling) (time : Nat),
          (handled.foldl (handle p)
            (m.runUntil (fun _ => false) (some time))).tokens.isCancelled token = true := by
        intro handled time
        rw [tokens_handle]
        exact isCancelled_runUntil _ _ h
      simp only [watchProgram]
      split
      · apply hhandled
      · apply ih
        apply hhandled

theorem isCancelled_await (run : Run) (h : m.tokens.isCancelled token = true) :
    (m.await run).2.tokens.isCancelled token = true := by
  unfold await
  split
  · exact h
  · rename_i p _
    have hwaited : (if p.watch.isBlocking then m.waitProgram p
        else m.watchProgram p lookLimit 0).2.tokens.isCancelled token = true := by
      split
      · exact isCancelled_runUntil _ _ h
      · exact isCancelled_watchProgram p _ _ h
    split
    rename_i verdict? m' hwait
    rw [hwait] at hwaited
    split
    · show Tokens.isCancelled (tokens (ite _ _ _)) token = true
      split
      · exact isCancelled_runUntil _ _ hwaited
      · exact hwaited
    · exact hwaited

theorem tokens_launch (m : Machine) (command : Command) :
    (m.launch command).2.tokens = m.tokens := by
  unfold launch
  split
  · rfl
  · dsimp only
    split <;> rfl

theorem launch_refuses {command : Command} (hcommand : command.cancel? = some token)
    (h : m.tokens.isCancelled token = true) : (m.launch command).1 = .error .cancelled := by
  unfold launch
  rw [hcommand]
  simp [h]

theorem heeds (token : Token) :
    host.Heeds token (fun m => m.tokens.isCancelled token = true) where
  stays r m h := by
    cases r with
    | await run => exact isCancelled_await run h
    | launch command =>
        show Tokens.isCancelled (m.launch command).2.tokens token = true
        rw [tokens_launch]
        exact h
    | currentDirectory =>
        simp only [host, answer]
        split <;> exact h
    | removeFile path =>
        simp only [host, answer]
        split <;> exact h
    | _ => exact h
  seen m h := h
  refuses command m hcommand h := launch_refuses hcommand h

end Machine
end Bytelink
