import Emu51.Library.Mailbox
import Emu51.Library.Transition
import Emu51.Machine.Setup

/-!
# Reception

The listener hands bytes to the firmware through `SBUF`, with `RI` as the only handshake. Seen from
the connection this is a mailbox with one slot, and it works like one as long as the firmware does
not store a byte of its own in `SBUF`, as every transmission does, between a delivery and its
reading.
-/

namespace Emu51

variable {σ : Type}

/-! ## Listener and firmware -/

/-- The machine together with the bytes still to come on the connection (the listener holds the
first of them), whether the byte delivered last has not been read yet, and the bytes the firmware
has obtained. -/
structure Link (σ : Type) where
  machine : Machine σ
  coming : List Byte
  unread : Bool
  got : List Byte

/-- Whose turn it is: an instruction or one pass of the listener. -/
inductive Turn where
  | insn
  | uart
  deriving DecidableEq

/-- The value of the first read of `SBUF`. -/
def firstRead : List (Σ o : CpuOp, o.Res) → Option Byte
  | [] => none
  | ⟨.readd a, v⟩ :: t => if a = SBUF then some v else firstRead t
  | _ :: t => firstRead t

/-- Whether an operation writes `SBUF` (`true`), reads it (`false`) or does neither. -/
def CpuOp.sbuf : CpuOp → Option Bool
  | .readd a => if a = SBUF then some false else none
  | .writed a _ => if a = SBUF then some true else none
  | _ => none

/-- The first access to `SBUF` is a write. -/
def WritesFirst (t : List (Σ o : CpuOp, o.Res)) : Prop :=
  t.findSome? (fun e => e.1.sbuf) = some true

instance (t : List (Σ o : CpuOp, o.Res)) : Decidable (WritesFirst t) :=
  inferInstanceAs (Decidable (_ = _))

namespace Machine

/-- What an instruction of the firmware does to the link, where `m` is its outcome and `read` the
first byte it has read from `SBUF`. The firmware may not clear `RI` before it has read the byte. -/
def afterInsn (c : Link σ) (m : Machine σ) (read : Option Byte) : Option (Link σ) :=
  match c.unread, read with
  | true, some v => some ⟨m, c.coming, false, c.got ++ [v]⟩
  | true, none => if m.sfr SCON &&& SCON_RI = 0 then none else some { c with machine := m }
  | false, _ => some { c with machine := m }

/-- One turn. -/
def receive (script : Script σ) : Turn → Link σ → Option (Link σ)
  | .uart, c =>
      match c.coming with
      | [] => none
      | d :: ds =>
          let y := c.machine.uartListener d
          if y.1 then some ⟨y.2, ds, true, c.got⟩
          else some { c with machine := y.2 }
  | .insn, c =>
      (nextop script c.machine).bind fun y =>
        (dispatch script y.1 y.2).bind fun m =>
          afterInsn c m (firstRead ((insn y.1).trace (cpuExec script) y.2))

/-- The turns as a transition relation. -/
def Receives (script : Script σ) (c : Link σ) (turn : Turn) (c' : Link σ) : Prop :=
  receive script turn c = some c'

/-- If a delivered byte has not been read yet, an instruction does not write `SBUF` before it reads
it. -/
def SparesByte (script : Script σ) (c : Link σ) (turn : Turn) : Prop :=
  turn = .insn → c.unread = true →
    ∀ y ∈ nextop script c.machine, ¬WritesFirst ((insn y.1).trace (cpuExec script) y.2)

instance (script : Script σ) (c : Link σ) (turn : Turn) : Decidable (SparesByte script c turn) :=
  inferInstanceAs (Decidable (_ → _ → _))

/-- The link as a mailbox whose slot is `SBUF`. -/
def mailbox (c : Link σ) : Mailbox Byte where
  coming := c.coming
  slot := if c.unread then some (c.machine.sfr SBUF) else none
  got := c.got

/-- What a run preserves: the trap table, and that an unread byte is announced by `RI`. -/
structure Announced (c : Link σ) : Prop where
  ramsfrtrap : c.machine.ramsfrtrap = sfrInitTrap
  ri : c.unread = true → c.machine.sfr SCON &&& SCON_RI ≠ 0

variable {script : Script σ} {m m' : Machine σ}

/-! ## Accesses to `SBUF` -/

/-- Nothing but a write to `SBUF` changes it among the effects of an access. -/
lemma SfrEffects.sbuf {ok : Byte → Byte → Prop} (hok : ∀ v, ¬ok SBUF v)
    (h : SfrEffects ok m m') : m'.sfr SBUF = m.sfr SBUF := by
  refine h.invariant (I := fun m' => m'.sfr SBUF = m.sfr SBUF) ?_ rfl
  intro m₁ m₂ hsbuf he
  rw [← hsbuf]
  cases he with
  | outside h => exact congrFun h.ramsfr _
  | refresh h =>
    have hne : SBUF ≠ PSW := by decide
    exact m₁.sfr_setSfr_of_ne (pswWithParity (m₁.sfr PSW) (m₁.sfr ACC)) hne
  | hooked v h h₁ h₂ => exact m₁.sfr_setSfr_of_ne v h₂.symm
  | store h =>
    rename_i a v
    refine m₁.sfr_setSfr_of_ne v ?_
    rintro rfl
    exact hok v h
  | transmit h => exact absurd h (hok _)
  | sent h => exact absurd h (hok _)
  | dptr l h => rfl
  | window h => rfl
  | notify a =>
    obtain ⟨l0, l1, hl⟩ := m₁.sfrNotify_eq a
    rw [hl]
    rfl

/-- Operations that do not write `SBUF` leave it alone. -/
lemma cpuExec_sbuf (hs : script.PokesOnly fun a _ => a ≠ SBUF) {o : CpuOp}
    (ho : o.sbuf ≠ some true) {r : o.Res} (h : cpuExec script o m = some (r, m')) :
    m'.sfr SBUF = m.sfr SBUF ∧ m'.ramsfrtrap = m.ramsfrtrap := by
  cases o with
  | readd a =>
    have heffects := readd_effects hs h
    exact ⟨heffects.sbuf fun _ hne => hne rfl, heffects.fixed.ramsfrtrap⟩
  | writed a v =>
    obtain ⟨m₁, hm₁, heq⟩ := Option.map_eq_some_iff.1 h
    obtain ⟨-, rfl⟩ := Prod.mk.inj heq
    have hne : a ≠ SBUF := by
      rintro rfl
      exact ho (by simp [CpuOp.sbuf])
    have heffects := writed_effects hs hne hm₁
    exact ⟨heffects.sbuf fun _ hne => hne rfl, heffects.fixed.ramsfrtrap⟩
  | writex a v =>
    obtain ⟨-, rfl⟩ := Prod.mk.inj (Option.some.inj h)
    have hcore := m.sameCore_writex a v
    exact ⟨congrFun hcore.ramsfr _, hcore.ramsfrtrap⟩
  | writei a v =>
    obtain ⟨-, rfl⟩ := Prod.mk.inj (Option.some.inj h)
    exact ⟨by rw [sfr, setCell_apply, if_neg (iramCell_ne_sfr a (by decide)).symm], rfl⟩
  | setRx n v =>
    obtain ⟨-, rfl⟩ := Prod.mk.inj (Option.some.inj h)
    exact ⟨by rw [sfr, setCell_apply, if_neg (regCell_ne_sfr m.reg n (by decide)).symm], rfl⟩
  | set q v =>
    obtain ⟨-, rfl⟩ := Prod.mk.inj (Option.some.inj h)
    exact ⟨m.sfr_setSfr_of_ne v (by cases q <;> decide), rfl⟩
  | setDph v =>
    obtain ⟨-, rfl⟩ := Prod.mk.inj (Option.some.inj h)
    refine ⟨m.sfr_setSfr_of_ne v ?_, rfl⟩
    obtain ⟨a, rfl | rfl⟩ := m.dph <;> decide
  | setDpl v =>
    obtain ⟨-, rfl⟩ := Prod.mk.inj (Option.some.inj h)
    refine ⟨m.sfr_setSfr_of_ne v ?_, rfl⟩
    obtain ⟨a, rfl | rfl⟩ := m.dpl <;> decide
  | _ =>
    obtain ⟨-, rfl⟩ := Prod.mk.inj (Option.some.inj h)
    exact ⟨rfl, rfl⟩

/-- A read of `SBUF` returns its contents and changes nothing. -/
lemma readd_sbuf (m : Machine σ) : readd script SBUF m = some (m.sfr SBUF, m) := by
  unfold readd readdVia
  split_ifs
  · rfl
  · rfl

/-- If no write comes first, the first read returns the contents at the beginning, and without a
read they are the contents at the end. -/
lemma run_sbuf (hs : script.PokesOnly fun a _ => a ≠ SBUF) {α : Type} {p : Cpu α} {a : α}
    (hp : ¬WritesFirst (p.trace (cpuExec script) m))
    (h : p.run (cpuExec script) m = some (a, m')) :
    match firstRead (p.trace (cpuExec script) m) with
    | some v => v = m.sfr SBUF
    | none => m'.sfr SBUF = m.sfr SBUF := by
  induction p generalizing m with
  | done b =>
    obtain ⟨-, rfl⟩ := Prod.mk.inj (Option.some.inj h)
    rfl
  | node o k ih =>
    obtain ⟨⟨r, m₁⟩, hop, hrest⟩ := Option.bind_eq_some_iff.1 h
    rw [Prog.trace_node_of_some hop] at hp ⊢
    cases ho : o.sbuf with
    | none =>
      have hkeep := (cpuExec_sbuf hs (by rw [ho]; exact Option.some_ne_none _ ∘ Eq.symm) hop).1
      have hfirst : firstRead (⟨o, r⟩ :: (k r).trace (cpuExec script) m₁) =
          firstRead ((k r).trace (cpuExec script) m₁) := by
        cases o with
        | readd a => exact if_neg fun ha => by simp [CpuOp.sbuf, ha] at ho
        | _ => rfl
      rw [hfirst, ← hkeep]
      exact ih r (fun hw => hp (by simpa [WritesFirst, ho] using hw)) hrest
    | some w =>
      cases w with
      | true => exact absurd (by simp [WritesFirst, ho]) hp
      | false =>
        cases o with
        | readd a =>
          have ha : a = SBUF := by simpa [CpuOp.sbuf] using ho
          subst ha
          obtain ⟨rfl, -⟩ := Prod.mk.inj (Option.some.inj ((readd_sbuf m).symm.trans hop))
          rfl
        | writed a v => exact absurd ho (by by_cases ha : a = SBUF <;> simp [CpuOp.sbuf, ha])
        | _ => exact absurd ho (Option.some_ne_none _).symm

/-! ## One turn -/

/-- `nextop` leaves `SBUF` alone, and with it a byte that waits to be read. -/
lemma nextop_sbuf {op : Byte} (ht : m.ramsfrtrap = sfrInitTrap)
    (h : nextop script m = some (op, m')) : m'.sfr SBUF = m.sfr SBUF := by
  obtain ⟨mask, val, heq⟩ := nextop_eq script ht
  obtain ⟨-, rfl⟩ := Prod.mk.inj (Option.some.inj (h.symm.trans heq))
  exact m.pollIrq_sfr (by decide) (by decide)

/-- The listener takes its byte exactly if `RI` is clear. -/
lemma uartListener_fst (d : Byte) (m : Machine σ) :
    (m.uartListener d).1 = decide (m.sfr SCON &&& SCON_RI = 0) := by
  unfold uartListener
  split_ifs with hri
  · exact (decide_eq_true hri).symm
  · exact (decide_eq_false hri).symm

/-- A byte that has been taken is in `SBUF`, and `RI` says so. -/
lemma uartListener_of_taken {d : Byte} (h : (m.uartListener d).1 = true) :
    (m.uartListener d).2.sfr SBUF = d ∧ (m.uartListener d).2.sfr SCON &&& SCON_RI ≠ 0 := by
  rw [uartListener_fst, decide_eq_true_eq] at h
  unfold uartListener
  rw [if_pos h]
  refine ⟨?_, ?_⟩
  · exact (sfr_setSfr_of_ne _ _ (by decide)).trans (sfr_setSfr_self _ _ _)
  · dsimp only
    rw [sfr_setSfr_self]
    generalize (m.setSfr SBUF d).sfr SCON = scon
    revert scon
    decide

/-- A byte that is not taken changes nothing. -/
lemma uartListener_of_refused {d : Byte} (h : ¬(m.uartListener d).1 = true) :
    (m.uartListener d).2 = m := by
  rw [uartListener_fst, decide_eq_true_eq] at h
  unfold uartListener
  rw [if_neg h]

variable {c c' : Link σ} {turn : Turn}

/-- The three outcomes of an instruction: it reads the byte that waits, or it leaves it, or there is
none. -/
lemma afterInsn_cases {read : Option Byte} (h : afterInsn c m read = some c') :
    (c.unread = true ∧ ∃ v, read = some v ∧ c' = ⟨m, c.coming, false, c.got ++ [v]⟩) ∨
    (c.unread = true ∧ read = none ∧ m.sfr SCON &&& SCON_RI ≠ 0 ∧
      c' = ⟨m, c.coming, true, c.got⟩) ∨
    (c.unread = false ∧ c' = ⟨m, c.coming, false, c.got⟩) := by
  obtain ⟨m₀, coming, unread, got⟩ := c
  cases unread with
  | true =>
    cases read with
    | some v =>
      obtain rfl := Option.some.inj h
      exact .inl ⟨rfl, v, rfl, rfl⟩
    | none =>
      unfold afterInsn at h
      dsimp only at h
      split_ifs at h with hri
      obtain rfl := Option.some.inj h
      exact .inr (.inl ⟨rfl, rfl, hri, rfl⟩)
  | false =>
    obtain rfl := Option.some.inj h
    exact .inr (.inr ⟨rfl, rfl⟩)

/-- After every turn a byte in `SBUF` that waits to be read is announced by `RI`. -/
lemma receive_announced (hc : Announced c) (h : Receives script c turn c') : Announced c' := by
  obtain ⟨m, coming, unread, got⟩ := c
  cases turn with
  | uart =>
    cases coming with
    | nil => exact absurd h (Option.some_ne_none c').symm
    | cons d ds =>
      have htrap : (m.uartListener d).2.ramsfrtrap = sfrInitTrap :=
        (m.uartListener_setup d).ramsfrtrap.trans hc.ramsfrtrap
      unfold Receives receive at h
      dsimp only at h
      split_ifs at h with htaken
      · obtain rfl := Option.some.inj h
        exact ⟨htrap, fun _ => (uartListener_of_taken htaken).2⟩
      · obtain rfl := Option.some.inj h
        refine ⟨htrap, fun hunread => ?_⟩
        dsimp only
        rw [uartListener_of_refused htaken]
        exact hc.ri hunread
  | insn =>
    obtain ⟨⟨op, m₁⟩, hnext, hrest⟩ := Option.bind_eq_some_iff.1 h
    obtain ⟨m₂, hexec, hlink⟩ := Option.bind_eq_some_iff.1 hrest
    have htrap : m₂.ramsfrtrap = sfrInitTrap :=
      ((nextop_setup hnext).trans (dispatch_setup hexec)).ramsfrtrap.trans hc.ramsfrtrap
    rcases afterInsn_cases hlink with ⟨-, v, -, rfl⟩ | ⟨-, -, hri, rfl⟩ | ⟨-, rfl⟩
    · exact ⟨htrap, fun h => absurd h Bool.false_ne_true⟩
    · exact ⟨htrap, fun _ => hri⟩
    · exact ⟨htrap, fun h => absurd h Bool.false_ne_true⟩

/-- A turn that spares an unread byte is a move of the mailbox. -/
lemma receive_step (hs : script.PokesOnly fun a _ => a ≠ SBUF) (hc : Announced c)
    (hspares : SparesByte script c turn) (h : Receives script c turn c') :
    Mailbox.Step (mailbox c) (mailbox c') := by
  obtain ⟨m, coming, unread, got⟩ := c
  cases turn with
  | uart =>
    cases coming with
    | nil => exact absurd h (Option.some_ne_none c').symm
    | cons d ds =>
      unfold Receives receive at h
      dsimp only at h
      split_ifs at h with htaken
      · obtain rfl := Option.some.inj h
        have hfree : unread = false := by
          rw [uartListener_fst, decide_eq_true_eq] at htaken
          by_contra hunread
          exact hc.ri (Bool.not_eq_false _ ▸ hunread) htaken
        subst hfree
        have hslot : mailbox (⟨(m.uartListener d).2, ds, true, got⟩ : Link σ) =
            ⟨ds, some d, got⟩ := by
          unfold mailbox
          rw [if_pos rfl, (uartListener_of_taken htaken).1]
        rw [hslot]
        exact .fill d ds got
      · obtain rfl := Option.some.inj h
        rw [uartListener_of_refused htaken]
        exact .idle _
  | insn =>
    obtain ⟨⟨op, m₁⟩, hnext, hrest⟩ := Option.bind_eq_some_iff.1 h
    obtain ⟨m₂, hexec, hlink⟩ := Option.bind_eq_some_iff.1 hrest
    obtain ⟨⟨u, m₃⟩, hrun, rfl⟩ := Option.map_eq_some_iff.1 hexec
    have hsbuf : unread = true → _ := fun hunread =>
      run_sbuf hs (hspares rfl hunread (op, m₁) hnext) hrun
    rw [nextop_sbuf hc.ramsfrtrap hnext] at hsbuf
    rcases afterInsn_cases hlink with ⟨hunread, v, hread, rfl⟩ | ⟨hunread, hread, -, rfl⟩ |
      ⟨hunread, rfl⟩
    · have hv := hsbuf hunread
      rw [hread] at hv
      obtain rfl : v = m.sfr SBUF := hv
      unfold mailbox
      rw [if_pos hunread]
      exact .take _ coming got
    · have hkeep := hsbuf hunread
      rw [hread] at hkeep
      have hsame : mailbox (⟨m₃, coming, true, got⟩ : Link σ) =
          mailbox ⟨m, coming, unread, got⟩ := by
        unfold mailbox
        rw [if_pos rfl, if_pos hunread, show m₃.sfr SBUF = m.sfr SBUF from hkeep]
      rw [hsame]
      exact .idle _
    · obtain rfl : unread = false := hunread
      exact .idle _

/-! ## Runs -/

/-- In every run from the start of the program in which no instruction overwrites a byte that has
not been read, the bytes the firmware has obtained are the first of those that were sent. -/
theorem run_got_prefix (hs : script.PokesOnly fun a _ => a ≠ SBUF) {heap : ℕ → Buffer}
    {file sent : List Byte} {m₀ : Machine σ} (hboot : boot script heap file = some m₀)
    {tr : List (Link σ × Turn)} (hrun : Run (Receives script) ⟨m₀, sent, false, []⟩ tr c)
    (hspares : ∀ e ∈ tr, SparesByte script e.1 e.2) :
    Run.Throughout (fun c => c.got <+: sent) tr c := by
  have hinv : Run.Throughout (fun c => Announced c ∧ (mailbox c).items = sent) tr c := by
    refine hrun.invariant_of_forall ?_ hspares ⟨⟨(boot_setup hboot).1, ?_⟩, ?_⟩
    · rintro c turn c' ⟨hc, hitems⟩ hspare h
      exact ⟨receive_announced hc h, (receive_step hs hc hspare h).items_eq.trans hitems⟩
    · exact fun h => absurd h Bool.false_ne_true
    · rfl
  have hprefix : ∀ c : Link σ, Announced c ∧ (mailbox c).items = sent → c.got <+: sent := by
    rintro c ⟨-, rfl⟩
    exact Mailbox.got_prefix (mailbox c)
  exact ⟨fun e he => hprefix _ (hinv.1 e he), hprefix _ hinv.2⟩

/-- The theorem at a byte that is delivered and read by `MOV A,SBUF`. -/
theorem run_got_prefix_mov : ∃ (tr : List (Link Unit × Turn)) (c : Link Unit),
    c.got = [0x41] ∧ Run.Throughout (fun c => c.got <+: [0x41]) tr c := by
  have heval : ((boot mapsRom (fun _ => default) [0xe5, 0x99]).bind fun m =>
      (receive mapsRom .uart ⟨m, [0x41], false, []⟩).bind fun c₁ =>
        (receive mapsRom .insn c₁).map fun c => (decide (SparesByte mapsRom c₁ .insn), c.got)) =
      some (true, [0x41]) := by
    decide +kernel
  obtain ⟨m, hboot, hturns⟩ := Option.bind_eq_some_iff.1 heval
  obtain ⟨c₁, huart, hlast⟩ := Option.bind_eq_some_iff.1 hturns
  obtain ⟨c, hinsn, hval⟩ := Option.map_eq_some_iff.1 hlast
  obtain ⟨hspares, hgot⟩ := Prod.mk.inj hval
  have hrun : Run (Receives mapsRom) ⟨m, [0x41], false, []⟩
      [(⟨m, [0x41], false, []⟩, .uart), (c₁, .insn)] c :=
    .head huart (.head hinsn (.refl c))
  have hquiet : mapsRom.PokesOnly fun a _ => a ≠ SBUF := fun _ _ _ h => nomatch h
  refine ⟨_, c, hgot, run_got_prefix hquiet hboot hrun ?_⟩
  intro e he
  rcases List.mem_pair.1 he with rfl | rfl
  · exact fun h => absurd h (show Turn.uart ≠ Turn.insn by decide)
  · exact of_decide_eq_true hspares

/-- `MOV SBUF,#31H` between the delivery of `41H` and its reading: the firmware obtains `31H`. -/
theorem transmission_replaces_received_byte : ¬∀ (file sent : List Byte) (m₀ : Machine Unit)
    (tr : List (Link Unit × Turn)) (c : Link Unit),
    boot mapsRom (fun _ => default) file = some m₀ →
    Run (Receives mapsRom) ⟨m₀, sent, false, []⟩ tr c → c.got <+: sent := by
  intro hall
  have heval : ((boot mapsRom (fun _ => default) [0x75, 0x99, 0x31, 0xe5, 0x99]).bind fun m =>
      (Run.follow (receive mapsRom) [.uart, .insn, .insn] ⟨m, [0x41], false, []⟩).map
        fun c => c.got) = some [0x31] := by
    decide +kernel
  obtain ⟨m, hboot, hturns⟩ := Option.bind_eq_some_iff.1 heval
  obtain ⟨c, hfollow, hgot⟩ := Option.map_eq_some_iff.1 hturns
  obtain ⟨tr, -, hrun⟩ := Run.of_follow hfollow
  have hprefix := hall _ [0x41] m tr c hboot hrun
  rw [hgot] at hprefix
  exact absurd hprefix (by decide)

end Machine

end Emu51
