import GraphAttention.Proofs.DegreeEncoder.Vectors
import GraphAttention.Proofs.Sampling

/-!
# The Padding Row of an Encoder

The first row of a table is zero when the table is built from finite samples, and a node
without edges gets the zero vector from it. Nothing that an encoder does by itself
changes this: gradients go to buffers, and buffers are not data. What can change it is
data that is written from outside, by replacing a parameter or by loading a file. Such
data is checked for its kind and its shape, and its first row is taken as it is.

The row is therefore zero for as long as only data with a first row of zeros is
written, and a single operation suffices to make it something else.

## Theorems

* `each_iff`: Parameters and tables.
* `zeroRow_steady`: A row of zeros is lost only to data that is written.
* `sort_vectorAt`: Rows of zeros give zero vectors.
* `padding_stays_zero`: The padding row after a script.
* `not_forall_padding_zero`: A script that ends it.
-/

namespace GraphAttention

open GraphAttention.Action

/-- A row of zeros is lost only when other data is written. -/
theorem Parameter.zeroRow_steady (d : DType) (row dim : Nat) :
    Parameter.Steady (fun p => p.data.ZeroRow d row dim) (Tensor.ZeroRow d row dim) where
  zeroGrad _ h := h
  freeze _ _ h := h
  accumulate g := Parameter.accumulate_keeps_data g (Tensor.ZeroRow d row dim)
  write _ _ _ _ h := h

namespace DegreeEncoder

variable {c : DegreeConfig} {e : DegreeEncoder} {graph : TypedGraph}

/-- The parameters are the weights of the tables. -/
theorem each_iff {Q : Parameter → Prop} :
    Module.Each Q e ↔ e.tables.All fun t => Q t.weight := by
  rcases e with ⟨m, n, t | t | ⟨t, u⟩⟩
  · simp [Module.Each, Module.parameters]
  · simp [Module.Each, Module.parameters]
  · simp [Module.Each, Module.parameters]

/-- An operation of its own keeps a steady property of all parameters. -/
theorem perform_keeps_each {Q : Parameter → Prop} {sound : Tensor → Prop}
    (hQ : Parameter.Steady Q sound) (op : Op) :
    Keeps (perform op) fun s => Module.Each Q s.value := by
  refine perform_keeps (fun graph g => backward_keeps graph g fun side indices => ?_) op
  refine onSide_keeps (Q := fun t => Q t.weight) ?_ ?_ ?_
  · exact Embedding.backward_keeps hQ.accumulate (fun _ h => h) (fun _ _ _ h => h) indices g
  · exact fun e t h ht => each_iff.mp h side t ht
  · exact fun e t t' h ht ht' => each_iff.mpr ((each_iff.mp h).withAt ht ht')

/-- A row of zeros in a table, or in each of two, gives zero. -/
theorem sort_vectorAt (hd : c.dtype.isFloat = true) {entering leaving j : Nat}
    (h : ∀ side t, e.tables.at? side = some t →
      c.dtype.sort (t.weight.data.entry c.dtype [side.pick leaving entering, j]) = .zero) :
    c.dtype.sort (e.tables.vectorAt c.dtype entering leaving j) = .zero := by
  rcases e with ⟨m, n, t | t | ⟨t, u⟩⟩
  · exact h .target t rfl
  · exact h .source t rfl
  · exact DType.sort_zero_add_zero hd (h .target t rfl) (h .source u rfl)

/-- A number in a list of rows that is zero stands for row zero. -/
theorem RowsOf.eq_zero {side : EdgeEnd} {t : Tensor} (h : RowsOf side graph c.maxDegree t)
    (hlargest : c.maxDegree < 2 ^ 63) {v : Nat} (hv : v < graph.numNodes)
    (hzero : t.entry .int64 [v] = 0) : rowOf side graph c.maxDegree v = 0 := by
  have hrow := h.toInt_entry hlargest hv
  have hint : (0 : Int64).toInt = 0 := rfl
  rw [hzero, hint] at hrow
  omega

/-- While the padding rows are zero, a node whose degrees, of the ends that count, are
    zero gets the zero vector. -/
theorem forward_zero (h : Follows c e)
    (hrows : Module.Each (fun p => p.data.ZeroRow c.dtype 0 c.embeddingDim) e) {out : Tensor}
    (hout : e.forward graph = .ok out) :
    ∃ entering leaving, e.clampedDegrees graph = .ok (entering, leaving) ∧
      ∀ v, v < graph.numNodes →
        (∀ side t, e.tables.at? side = some t →
          (side.pick leaving entering).entry .int64 [v] = 0) →
        ∀ j, j < c.embeddingDim → c.dtype.sort (out.entry c.dtype [v, j]) = .zero := by
  have hlargest := h.maxDegree_lt
  have hd : c.dtype.isFloat = true := by
    rcases h.exists_suits with ⟨t, ht⟩
    exact ht.wellFormed.isFloat
  cases hdegrees : e.clampedDegrees graph with
  | error x =>
    rw [forward_error hdegrees] at hout
    cases hout
  | ok degrees =>
    rcases degrees with ⟨entering, leaving⟩
    refine ⟨entering, leaving, rfl, fun v hv hzero j hj => ?_⟩
    rw [← h.maxDegree] at hlargest
    have hlist := clampedDegrees_rows hlargest hdegrees
    rw [h.maxDegree] at hlargest hlist
    rw [(forward_rows h hout).2 v j hv hj]
    refine sort_vectorAt hd fun side t ht => ?_
    -- A degree of zero looks up the padding row of its table.
    have hrow := each_iff.mp hrows side t ht j hj
    have hdegree := hzero side t ht
    cases side with
    | source =>
      rw [hlist.2.eq_zero hlargest hv hdegree]
      exact hrow
    | target =>
      rw [hlist.1.eq_zero hlargest hv hdegree]
      exact hrow

/-- Where tables are drawn from finite samples, the padding row of every table is zero after
    any script in which all data that is written has a first row of zeros, whatever else is
    done and whatever fails. A node whose degrees are zero then gets the zero vector from
    every graph. -/
theorem padding_stays_zero {G : Type} [NormalSource G] (hsamples : NormalSource.Finite G)
    {new : DegreeEncoder} {g g' : G} (hbuild : build c g = (.ok new, g'))
    (steps : List (Script ModuleError (ModuleOp Op)))
    (hsteps : ∀ op ∈ Script.allOps steps, ∀ t ∈ op.written, t.ZeroRow c.dtype 0 c.embeddingDim)
    (he : e = (Script.runAll ModuleError.isFatal (ModuleOp.perform perform) steps
      (Tracked.start new)).2.value) :
    (∀ p ∈ Module.parameters e, p.data.ZeroRow c.dtype 0 c.embeddingDim) ∧
    ∀ graph out, e.forward graph = .ok out →
      ∃ entering leaving, e.clampedDegrees graph = .ok (entering, leaving) ∧
        ∀ v, v < graph.numNodes →
          (∀ side t, e.tables.at? side = some t →
            (side.pick leaving entering).entry .int64 [v] = 0) →
          ∀ j, j < c.embeddingDim → c.dtype.sort (out.entry c.dtype [v, j]) = .zero := by
  have hreached : Reached G c e := ⟨g, g', new, steps, hbuild, he⟩
  have hrows : Module.Each (fun p => p.data.ZeroRow c.dtype 0 c.embeddingDim) e := by
    have hsteady := Parameter.zeroRow_steady c.dtype 0 c.embeddingDim
    have hnew : Module.Each (fun p => p.data.ZeroRow c.dtype 0 c.embeddingDim) new :=
      each_iff.mpr (build_zeroRow hsamples c g new g' hbuild)
    rw [he]
    refine Script.runAll_keeps _ steps (fun op hop => ?_) (Tracked.start new) hnew
    exact ModuleOp.perform_keeps_each hsteady (fun _ _ => rfl) (perform_keeps_each hsteady) op
      (hsteps op hop)
  exact ⟨hrows, fun graph out hout => forward_zero hreached.follows.2 hrows hout⟩

/-- An encoder is given a gradient that is infinite and then data that is zero throughout.
    A node without edges gets the zero vector. -/
theorem padding_stays_zero_afterGradient :
    ∃ (e : DegreeEncoder) (out : Tensor), Reached SplitMix ⟨1, 1, .incoming, .float64⟩ e ∧
      e.forward ⟨[("a", 1)], []⟩ = .ok out ∧
        DType.sort .float64 (out.entry .float64 [0, 0]) = .zero := by
  let c : DegreeConfig := ⟨1, 1, .incoming, .float64⟩
  let graph : TypedGraph := ⟨[("a", 1)], []⟩
  let infinite : Tensor := ⟨.float64, .fill [1, 1] ⟨0x7ff0000000000000⟩, by decide⟩
  let zeros : Tensor := ⟨.float64, .fill [2, 1] 0, by decide⟩
  let steps : List (Script ModuleError (ModuleOp Op)) :=
    [.act (.own (.backward graph infinite)), .act (.setParameter 0 zeros)]
  have hzeros : zeros.ZeroRow .float64 0 1 := by
    intro j hj
    obtain rfl : j = 0 := by omega
    exact DType.sort_zero .float64
  rcases build_ok (c := c) rfl (by decide) (by decide) (by decide) (SplitMix.mk 0) with
    ⟨new, g', hbuild⟩
  have hstays := padding_stays_zero SplitMix.finite_normals hbuild steps ?_ rfl
  · have hreached : Reached SplitMix c _ := ⟨_, g', new, steps, hbuild, rfl⟩
    rcases hreached.follows with ⟨hc, hfollows⟩
    have hmade : TypedGraph.ofTypes [("a", 1)] = .ok graph := rfl
    rcases (forward_ok_iff hc hfollows (TypedGraph.Reachable.ofTypes (by decide) hmade).sound).mpr
      ⟨by decide, by decide, by decide⟩ with ⟨out, hout⟩
    rcases hstays.2 graph out hout with ⟨entering, leaving, hdegrees, hzero⟩
    refine ⟨_, out, hreached, hout, ?_⟩
    refine hzero 0 (by decide) (fun side t ht => ?_) 0 (by decide)
    have hlargest := hfollows.maxDegree_lt
    rw [← hfollows.maxDegree] at hlargest
    have hlist := clampedDegrees_rows hlargest hdegrees
    rw [hfollows.maxDegree] at hlist
    cases side with
    | source => exact hlist.2.entry 0 (by decide)
    | target => exact hlist.1.entry 0 (by decide)
  · intro op hop t ht
    simp only [steps, Script.allOps, Script.ops, List.append_nil, List.cons_append,
      List.nil_append, List.mem_cons, List.not_mem_nil, or_false] at hop
    rcases hop with rfl | rfl
    · cases ht
    · obtain rfl := List.mem_singleton.mp ht
      exact hzeros

/-- Data that fits a parameter replaces its data. -/
theorem setParameter_run {index : Nat} {data : Tensor} {p : Parameter} {s : Tracked DegreeEncoder}
    (hp : (Module.parameters s.value)[index]? = some p) (hfits : p.Fits data) :
    (ModuleOp.perform perform (.setParameter index data) s).2.value
      = Module.withParameters ((Module.parameters s.value).set index { p with data := data })
          s.value := by
  rw [ModuleOp.perform, run_bind, Module.onParameter_run hp, Tracked.onValue, run_zoom,
    Parameter.setData_ok hfits]
  rfl

/-- Replacing the data of a table by ones makes its padding row one of ones. -/
theorem not_forall_padding_zero :
    ¬ ∀ (c : DegreeConfig) (e : DegreeEncoder), Reached SplitMix c e →
      ∀ p ∈ Module.parameters e, p.data.ZeroRow c.dtype 0 c.embeddingDim := by
  intro hall
  let c : DegreeConfig := ⟨1, 1, .incoming, .float64⟩
  let ones : Tensor := ⟨.float64, .fill [2, 1] 1, by decide⟩
  have hones : DType.sort .float64 (ones.entry .float64 [0, 0]) ≠ .zero := by decide +kernel
  rcases build_ok (c := c) rfl (by decide) (by decide) (by decide) (SplitMix.mk 0) with
    ⟨new, g', hbuild⟩
  have hfollows := (Reached.of_build hbuild).follows.2
  have hreached : Reached SplitMix c _ := ⟨_, g', new, [.act (.setParameter 0 ones)], hbuild, rfl⟩
  -- The encoder has one table, and its weight is the first parameter.
  rcases new with ⟨m, n, t | t | ⟨t, u⟩⟩
  · have hweight := (hfollows.table .target t rfl).weight
    have hfits : t.weight.Fits ones := ⟨hweight.dtype.symm, hweight.shape.symm⟩
    have hrun : (ModuleOp.perform perform (.setParameter 0 ones)
        (Tracked.start ⟨m, n, .incoming t⟩)).2.value = _ := setParameter_run rfl hfits
    have hzero := hall c _ hreached { t.weight with data := ones } ?_ 0 (by decide)
    · exact hones hzero
    · change _ ∈ Module.parameters (ModuleOp.perform perform (.setParameter 0 ones)
        (Tracked.start ⟨m, n, .incoming t⟩)).2.value
      rw [hrun]
      exact List.mem_cons_self
  · cases hfollows.direction
  · cases hfollows.direction

end DegreeEncoder

end GraphAttention
