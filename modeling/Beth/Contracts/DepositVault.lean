import Beth.Contracts.SystemCall

/-! # `DepositVault` -/

namespace Beth

open Foundation

namespace DepositVault

structure SystemCreditDepositsCall where
  recipients : List Address
  amountsSats : List Nat
deriving DecidableEq

/-- One iteration of the crediting loop. -/
def creditDeposit (env : CallEnv) (recipient : Address) (amountSats : Nat)
    (frame : Frame) : Except CallFailure Frame := do
  let frame ← frame.charge (env.schedule.beforeCall recipient)
  let amountWei ← checkedMul amountSats weiPerSat
  let called := frame.call env depositVaultAddress recipient amountWei
  let frame ← called.1.charge env.schedule.afterCall
  pure (frame.emit (.depositCredited recipient amountSats called.2))

/-- The loop runs over `recipients`; reading past the end of `amountsSats`
panics. -/
def creditLoop (env : CallEnv) : List Address → List Nat → Frame →
    Except CallFailure Frame
  | [], _, frame => .ok frame
  | _ :: _, [], _ => .error (.revert "Panic(0x32)")
  | recipient :: recipients, amountSats :: amountsSats, frame => do
      let frame ← creditDeposit env recipient amountSats frame
      creditLoop env recipients amountsSats frame

def systemCreditDeposits (env : CallEnv) (msgSender : Address)
    (call : SystemCreditDepositsCall) (frame : Frame) : Except CallFailure Frame := do
  require (msgSender = systemAddress) "DepositVault: not a system call"
  creditLoop env call.recipients call.amountsSats frame

/-! ## What one iteration does -/

/-- The state after crediting one deposit: one CALL was made, one event tells
how it ended, and the world changed as that CALL says. -/
structure Credited (recipient : Address) (amountSats : Nat) (before after : Frame) :
    Prop where
  unmetered : before.gas = none → after.gas = none
  calls : after.calls = before.calls + 1
  paid : ∃ success,
    after.logs = before.logs ++ [.depositCredited recipient amountSats success] ∧
    Frame.PaymentEffect depositVaultAddress recipient (amountSats * weiPerSat)
      before.world success after.world

/-- A satoshi amount of 64 bits never overflows in wei. -/
theorem checkedMul_weiPerSat {amountSats : Nat} (fits : amountSats < 2 ^ 64) :
    checkedMul amountSats weiPerSat = .ok (amountSats * weiPerSat) := by
  have bound : amountSats * weiPerSat < 2 ^ 256 := by
    simp only [weiPerSat]
    omega
  rw [checkedMul, if_pos bound]

theorem creditDeposit_meets (env : CallEnv) (recipient : Address) {amountSats : Nat}
    (fits : amountSats < 2 ^ 64) (frame : Frame) :
    Meets (creditDeposit env recipient amountSats frame)
      (Credited recipient amountSats frame)
      (fun failure => failure = .outOfGas ∧ frame.gas ≠ none) := by
  unfold creditDeposit
  refine Meets.bind (frame.charge_meets _) fun charged before => ?_
  rw [checkedMul_weiPerSat fits, ok_bind]
  have effect := charged.call_effect env depositVaultAddress recipient
    (amountSats * weiPerSat)
  have calls := charged.call_calls env depositVaultAddress recipient
    (amountSats * weiPerSat)
  have logs := charged.call_logs env depositVaultAddress recipient
    (amountSats * weiPerSat)
  have unmetered := charged.call_unmetered env depositVaultAddress recipient
    (amountSats * weiPerSat)
  dsimp only
  generalize charged.call env depositVaultAddress recipient
    (amountSats * weiPerSat) = called at effect calls logs unmetered ⊢
  refine Meets.bind ((called.1.charge_meets _).mono (fun _ holds => holds) ?_) ?_
  · rintro failure ⟨isGas, metered⟩
    exact ⟨isGas, fun free => metered (unmetered (before.2.2.2 free))⟩
  · rintro after ⟨worldEq, callsEq, logsEq, stillFree⟩
    refine ⟨fun free => stillFree (unmetered (before.2.2.2 free)), ?_, called.2, ?_, ?_⟩
    · rw [Frame.emit_calls, callsEq, calls, before.2.1]
    · rw [Frame.emit_logs, logsEq, logs, before.2.2.1]
    · rw [Frame.emit_world, worldEq, ← before.1]
      exact effect

/-! ## The loop over a list of deposits -/

/-- What the credits and user code keep, the whole call keeps. -/
theorem systemCreditDeposits_preserves {Holds : World → Prop} (env : CallEnv)
    (msgSender : Address) (call : SystemCreditDepositsCall)
    (payment : ∀ world recipient amountWei, Holds world → recipient ∉ predeploys →
      amountWei ≤ world.balances depositVaultAddress →
      Holds { world with
        balances := world.balances.move depositVaultAddress recipient amountWei })
    (userCode : ∀ world next, Holds world → UserAction.Effect world next → Holds next)
    (frame : Frame) (holds : Holds frame.world) :
    Meets (systemCreditDeposits env msgSender call frame)
      (fun next => Holds next.world) fun _ => True := by
  have stepKeeps : ∀ recipient amountSats (frame : Frame), Holds frame.world →
      Meets (creditDeposit env recipient amountSats frame)
        (fun next => Holds next.world) fun _ => True := by
    intro recipient amountSats frame holds
    unfold creditDeposit
    refine ((frame.charge_meets _).mono (fun _ kept => kept)
      fun _ _ => trivial).bind fun charged before => ?_
    unfold checkedMul
    split
    · rw [ok_bind]
      have paid := (charged.call_effect env depositVaultAddress recipient
        (amountSats * weiPerSat)).preserves (before.1 ▸ holds)
        (payment _ _ _ (before.1 ▸ holds)) userCode
      refine ((Frame.charge_meets _ _).mono (fun _ kept => kept)
        fun _ _ => trivial).bind fun after ended => ?_
      rw [Meets.pure_iff, Frame.emit_world, ended.1]
      exact paid
    · trivial
  have loopKeeps : ∀ recipients amountsSats (frame : Frame), Holds frame.world →
      Meets (creditLoop env recipients amountsSats frame)
        (fun next => Holds next.world) fun _ => True := by
    intro recipients
    induction recipients with
    | nil => exact fun _ _ holds => holds
    | cons recipient rest induction =>
        intro amountsSats frame holds
        cases amountsSats with
        | nil => trivial
        | cons amountSats others =>
            exact (stepKeeps recipient amountSats frame holds).bind
              fun next kept => induction others next kept
  unfold systemCreditDeposits require
  split
  · exact loopKeeps _ _ frame holds
  · trivial

theorem creditLoop_eq_foldlM (env : CallEnv) (deposits : List (Address × Nat))
    (frame : Frame) :
    creditLoop env (deposits.map Prod.fst) (deposits.map Prod.snd) frame =
      deposits.foldlM (fun frame deposit =>
        creditDeposit env deposit.1 deposit.2 frame) frame := by
  induction deposits generalizing frame with
  | nil => rfl
  | cons deposit rest induction =>
      simp only [List.map_cons, creditLoop, List.foldlM_cons, induction]

/-- The event of a credited deposit. -/
def Reports (deposit : Address × Nat) (event : Event) : Prop :=
  ∃ success, event = .depositCredited deposit.1 deposit.2 success

/-- The loop either reports every deposit in order or runs out of gas. -/
theorem systemCreditDeposits_meets (env : CallEnv) (deposits : List (Address × Nat))
    (fits : ∀ deposit ∈ deposits, deposit.2 < 2 ^ 64) (frame : Frame) :
    Meets (systemCreditDeposits env systemAddress
        { recipients := deposits.map Prod.fst
          amountsSats := deposits.map Prod.snd } frame)
      (fun next => ∃ events, next.logs = frame.logs ++ events ∧
        List.Forall₂ Reports deposits events)
      (· = .outOfGas) := by
  unfold systemCreditDeposits
  rw [require_of_holds _ rfl, ok_bind, creditLoop_eq_foldlM]
  induction deposits generalizing frame with
  | nil => exact ⟨[], by simp, .nil⟩
  | cons deposit rest induction =>
      rw [List.foldlM_cons]
      refine Meets.bind ((creditDeposit_meets env deposit.1
        (fits deposit (by simp)) frame).mono (fun _ credited => credited)
          fun _ failed => failed.1) ?_
      intro middle credited
      rcases credited.paid with ⟨success, logsEq, _⟩
      refine (induction (fun other member => fits other (by simp [member])) middle).mono ?_
        fun _ failed => failed
      intro next reported
      rcases reported with ⟨events, nextLogs, restReported⟩
      refine ⟨.depositCredited deposit.1 deposit.2 success :: events, ?_,
        .cons ⟨success, rfl⟩ restReported⟩
      rw [nextLogs, logsEq, List.append_assoc, List.singleton_append]

end DepositVault

end Beth
