import Rtpkit.FuzzMutate

namespace Rtpkit

open Draw

namespace Fuzz

/-- What `fuzz_cases` can make of some seeds. -/
inductive IsFuzzCase (seeds : List Bytes) (maxRandomLength : Int) : Bytes → Prop
  | noise {data : Bytes} (short : (data.length : Int) ≤ maxRandomLength) :
      IsFuzzCase seeds maxRandomLength data
  | empty (mem : [] ∈ seeds) : IsFuzzCase seeds maxRandomLength []
  | flipped {seed : Bytes} {pos bit : Nat} (mem : seed ∈ seeds) (hpos : pos < seed.length)
      (hbit : bit < 8) : IsFuzzCase seeds maxRandomLength (flipBit seed pos bit)
  | cut {seed : Bytes} {n : Nat} (mem : seed ∈ seeds) (hn : n < seed.length) :
      IsFuzzCase seeds maxRandomLength (seed.take n)
  | spliced {before after inserted : Bytes} (mem : before ++ after ∈ seeds)
      (hpos : 0 < inserted.length) (hlen : inserted.length ≤ 8) :
      IsFuzzCase seeds maxRandomLength (before ++ inserted ++ after)

section Sound

variable {σ : Type} (rng : Source σ) {q : DrawError → Prop}

theorem gives_run (length : Nat) : Gives (run rng length) (fun data => data.length = length) q := by
  induction length with
  | zero => exact gives_pure rfl
  | succ length ih =>
    refine (gives_randrange rng (by omega)).bind fun first _ => ih.bind fun rest hrest => ?_
    exact gives_pure (by rw [List.length_cons, hrest])

theorem gives_bitFlip_one (data : Bytes) :
    Gives (bitFlip rng data 1)
      (fun flipped => data = [] ∧ flipped = [] ∨
        ∃ pos < data.length, ∃ bit < 8, flipped = flipBit data pos bit) q := by
  unfold bitFlip
  split
  next h => exact gives_pure (.inl ⟨h, h⟩)
  next h =>
    have hlen := List.length_pos_of_ne_nil h
    refine (gives_randrange rng (by omega)).bind fun pos hpos => ?_
    refine (gives_randrange rng (by omega)).bind fun bit hbit => ?_
    exact gives_pure (.inr ⟨pos, by omega, bit, by omega, rfl⟩)

theorem gives_truncate (data : Bytes) :
    Gives (truncate rng data)
      (fun cut => data = [] ∧ cut = [] ∨ ∃ n < data.length, cut = data.take n) q := by
  unfold truncate
  split
  next h => exact gives_pure (.inl ⟨h, h⟩)
  next h =>
    have hlen := List.length_pos_of_ne_nil h
    refine (gives_randrange rng (by omega)).bind fun n hn => ?_
    exact gives_pure (.inr ⟨n, by omega, rfl⟩)

theorem gives_spliceRandomBytes (data : Bytes) {maxInsert : Int} (h : 1 ≤ maxInsert) :
    Gives (spliceRandomBytes rng data maxInsert)
      (fun spliced => ∃ before inserted after, data = before ++ after ∧ 0 < inserted.length ∧
        (inserted.length : Int) ≤ maxInsert ∧ spliced = before ++ inserted ++ after) q := by
  refine (gives_randrange rng (by omega)).bind fun pos _ => ?_
  refine (gives_randrange rng (by omega)).bind fun length hlength => ?_
  refine (gives_run rng length).bind fun inserted hinserted => ?_
  exact gives_pure ⟨data.take pos, inserted, data.drop pos, (List.take_append_drop pos data).symm,
    by omega, by omega, rfl⟩

/-- Only pure noise can fail, where there is no length to choose from. -/
theorem gives_fuzzCase (seeds : List Bytes) (maxRandomLength : Int) :
    Gives (fuzzCase rng seeds maxRandomLength) (IsFuzzCase seeds maxRandomLength)
      (fun e => maxRandomLength < 0 ∧ e = .valueError) := by
  have hmutate : Gives (mutates rng seeds) (fun mutate => mutate = true → seeds ≠ [])
      (fun e => maxRandomLength < 0 ∧ e = .valueError) := by
    unfold mutates
    split
    next => exact gives_pure (by simp)
    next h => exact (gives_fraction rng).bind fun _ _ => gives_pure fun _ => h
  refine hmutate.bind fun mutate hseeds => ?_
  split
  next h =>
    refine (gives_choice rng (hseeds h)).bind fun seed hseed => ?_
    refine (gives_choice rng (List.cons_ne_nil _ _)).bind fun mutator hmutator => ?_
    rw [List.mem_cons, List.mem_cons, List.mem_singleton] at hmutator
    rcases hmutator with rfl | rfl | rfl
    · refine (gives_bitFlip_one rng seed).mono ?_
      rintro _ (⟨rfl, rfl⟩ | ⟨pos, hpos, bit, hbit, rfl⟩)
      · exact .empty hseed
      · exact .flipped hseed hpos hbit
    · refine (gives_truncate rng seed).mono ?_
      rintro _ (⟨rfl, rfl⟩ | ⟨n, hn, rfl⟩)
      · exact .empty hseed
      · exact .cut hseed hn
    · refine (gives_spliceRandomBytes rng seed (by omega)).mono ?_
      rintro _ ⟨before, inserted, after, rfl, hpos, hlen, rfl⟩
      exact .spliced hseed hpos (by omega)
  next =>
    refine (gives_randrange rng fun hempty => ⟨by omega, rfl⟩).bind fun length hlength => ?_
    refine (gives_run rng _).mono fun data hdata => ?_
    exact .noise (by omega)

end Sound

section Complete

theorem can_run (data : Bytes) : Can (run scripted data.length) data := by
  induction data with
  | nil => exact can_pure
  | cons first rest ih =>
    have hfirst : Can (randrange scripted 0 256) first.toNat :=
      can_randrange (Nat.zero_le _) (by have hlt := first.toNat_lt; omega)
    refine hfirst.bind (ih.bind ?_)
    rw [UInt8.ofNat_toNat]
    exact can_pure

theorem can_flips_succ {count pos bit : Nat} {buf flipped : Bytes} (hpos : pos < buf.length)
    (hbit : bit < 8) (h : Can (flips scripted count (flipBit buf pos bit)) flipped) :
    Can (flips scripted (count + 1) buf) flipped :=
  (can_randrange (Nat.zero_le pos) (by exact_mod_cast hpos)).bind
    ((can_randrange (Nat.zero_le bit) (by exact_mod_cast hbit)).bind h)

theorem can_truncate {data : Bytes} {n : Nat} (hn : n < data.length) :
    Can (truncate scripted data) (data.take n) := by
  rw [truncate, if_neg (List.ne_nil_of_length_pos (by omega))]
  exact (can_randrange (Nat.zero_le n) (by exact_mod_cast hn)).bind can_pure

theorem can_spliceRandomBytes {before after inserted : Bytes} {maxInsert : Int}
    (hpos : 0 < inserted.length) (hlen : (inserted.length : Int) ≤ maxInsert) :
    Can (spliceRandomBytes scripted (before ++ after) maxInsert) (before ++ inserted ++ after) := by
  have hplace : Can (randrange scripted 0 ((before ++ after).length + 1)) before.length :=
    can_randrange (Nat.zero_le _) (by rw [List.length_append]; omega)
  have hlength : Can (randrange scripted 1 (maxInsert + 1)) inserted.length :=
    can_randrange (by omega) (by omega)
  refine hplace.bind (hlength.bind ((can_run inserted).bind ?_))
  rw [List.take_left, List.drop_left]
  exact can_pure

variable {seeds : List Bytes} {maxRandomLength : Int}

theorem can_mutate {seed case : Bytes} {mutator : Bytes → Draw (List Nat) Bytes}
    (hseed : seed ∈ seeds) (hmutator : mutator ∈ mutators scripted) (h : Can (mutator seed) case) :
    Can (fuzzCase scripted seeds maxRandomLength) case := by
  have hmutates : Can (mutates scripted seeds) true := by
    rw [mutates, if_neg (List.ne_nil_of_mem hseed)]
    exact (can_fraction 0).bind can_pure
  refine hmutates.bind ?_
  rw [if_pos rfl]
  exact (can_choice hseed).bind ((can_choice hmutator).bind h)

theorem can_noise {data : Bytes} (hlen : (data.length : Int) ≤ maxRandomLength) :
    Can (fuzzCase scripted seeds maxRandomLength) data := by
  have hmutates : Can (mutates scripted seeds) false := by
    unfold mutates
    split
    next => exact can_pure
    next => exact (can_fraction (Fin.last _)).bind can_pure
  refine hmutates.bind ?_
  rw [if_neg Bool.false_ne_true]
  exact (can_randrange (Nat.zero_le data.length) (by omega)).bind (can_run data)

/-- Every case of the grammar is drawn by some script. -/
theorem can_fuzzCase {case : Bytes} (h : IsFuzzCase seeds maxRandomLength case) :
    Can (fuzzCase scripted seeds maxRandomLength) case := by
  cases h with
  | noise short => exact can_noise short
  | empty mem => exact can_mutate mem (List.mem_cons_self ..) can_pure
  | flipped mem hpos hbit =>
    refine can_mutate mem (List.mem_cons_self ..) ?_
    rw [bitFlip, if_neg (List.ne_nil_of_length_pos (by omega))]
    exact can_flips_succ hpos hbit can_pure
  | cut mem hn =>
    exact can_mutate mem (List.mem_cons_of_mem _ (List.mem_cons_self ..)) (can_truncate hn)
  | spliced mem hpos hlen =>
    have hmutator : (fun data => spliceRandomBytes scripted data 8) ∈ mutators scripted :=
      List.mem_cons_of_mem _ (List.mem_cons_of_mem _ (List.mem_cons_self ..))
    exact can_mutate mem hmutator (can_spliceRandomBytes hpos (by omega))

end Complete

section Corpus

variable (seeds : List Bytes) (maxRandomLength : Int)

/-- A corpus stops short only where noise was asked for and has no length to choose from. -/
theorem yieldCases_sound {σ : Type} (rng : Source σ) (count : Nat) (s : σ) :
    ∃ cases, (∀ case ∈ cases, IsFuzzCase seeds maxRandomLength case) ∧
      (yieldCases rng seeds maxRandomLength count s = ⟨cases, none⟩ ∧ cases.length = count ∨
        yieldCases rng seeds maxRandomLength count s = ⟨cases, some .valueError⟩ ∧
          cases.length < count ∧ maxRandomLength < 0) := by
  induction count generalizing s with
  | zero => exact ⟨[], by simp, .inl ⟨rfl, rfl⟩⟩
  | succ count ih =>
    have hcase := gives_fuzzCase rng seeds maxRandomLength s
    rw [yieldCases]
    split at hcase
    next case s' hdraw =>
      rw [hdraw]
      dsimp only
      obtain ⟨cases, hall, hend⟩ := ih s'
      refine ⟨case :: cases, List.forall_mem_cons.mpr ⟨hcase, hall⟩, ?_⟩
      rcases hend with ⟨hyield, hlen⟩ | ⟨hyield, hlen, hmax⟩
      · exact .inl ⟨by rw [hyield]; rfl, by rw [List.length_cons, hlen]⟩
      · exact .inr ⟨by rw [hyield]; rfl, by rw [List.length_cons]; omega, hmax⟩
    next e hdraw =>
      obtain ⟨hmax, rfl⟩ := hcase
      rw [hdraw]
      exact ⟨[], by simp, .inr ⟨rfl, Nat.zero_lt_succ _, hmax⟩⟩

theorem yieldCases_complete {cases : List Bytes}
    (h : ∀ case ∈ cases, IsFuzzCase seeds maxRandomLength case) :
    ∃ script, yieldCases scripted seeds maxRandomLength cases.length script = ⟨cases, none⟩ := by
  induction cases with
  | nil => exact ⟨[], rfl⟩
  | cons case cases ih =>
    obtain ⟨hcase, hcases⟩ := List.forall_mem_cons.mp h
    obtain ⟨first, hfirst⟩ := can_fuzzCase hcase
    obtain ⟨rest, hrest⟩ := ih hcases
    refine ⟨first ++ rest, ?_⟩
    rw [List.length_cons, yieldCases, hfirst]
    dsimp only
    rw [hrest]
    rfl

/-- The corpora that can be drawn are the lists of as many cases of the grammar; only a negative
length of noise can make the generator raise, and then a `ValueError` after such cases. -/
theorem fuzzCases_corpora (count : Int) :
    (∀ cases, (∃ (σ : Type) (rng : Source σ) (s : σ),
        fuzzCases rng seeds maxRandomLength count s = ⟨cases, none⟩) ↔
      cases.length = count.toNat ∧ ∀ case ∈ cases, IsFuzzCase seeds maxRandomLength case) ∧
    ∀ (σ : Type) (rng : Source σ) (s : σ) (e : DrawError),
      (fuzzCases rng seeds maxRandomLength count s).failure = some e →
        maxRandomLength < 0 ∧ e = .valueError ∧
        (fuzzCases rng seeds maxRandomLength count s).items.length < count.toNat ∧
        ∀ case ∈ (fuzzCases rng seeds maxRandomLength count s).items,
          IsFuzzCase seeds maxRandomLength case := by
  refine ⟨fun cases => ⟨?_, ?_⟩, ?_⟩
  · rintro ⟨σ, rng, s, hyield⟩
    obtain ⟨cases', hall, ⟨hyield', hlen⟩ | ⟨hyield', -, -⟩⟩ :=
      yieldCases_sound seeds maxRandomLength rng count.toNat s
    · cases hyield.symm.trans hyield'
      exact ⟨hlen, hall⟩
    · cases hyield.symm.trans hyield'
  · rintro ⟨hlen, hall⟩
    obtain ⟨script, hscript⟩ := yieldCases_complete seeds maxRandomLength hall
    exact ⟨List Nat, scripted, script, by rw [fuzzCases, ← hlen, hscript]⟩
  · intro σ rng s e hfailure
    obtain ⟨cases, hall, ⟨hyield, -⟩ | ⟨hyield, hlen, hmax⟩⟩ :=
      yieldCases_sound seeds maxRandomLength rng count.toNat s
    · rw [fuzzCases, hyield] at hfailure
      cases hfailure
    · rw [fuzzCases, hyield] at hfailure ⊢
      cases hfailure
      exact ⟨hmax, rfl, hlen, hall⟩

end Corpus

end Fuzz

end Rtpkit
