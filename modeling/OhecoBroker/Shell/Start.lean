/-
The START payloads of the shell protocol (`internal/protocol/protocol.go`): the Go encoder, the Go
decoder, and what they have to do with each other.

* `Request`, `encodeStart`, `encodeDetached`: requests and their encoding;
* `Decoder`, `Decoder.decodeStart`, `decodeDetached`: the decoder;
* `str_iff`, `count_iff`, `argsLoop_iff`, `envLoop_iff`: what it takes for a field;
* `decodeStart_iff`, `decodeDetached_iff`: **the decoder succeeds on the encodings of well-formed
  requests, and on nothing else**.
-/
import OhecoBroker.Lib.BigEndian
import OhecoBroker.Shell.Text

namespace OhecoBroker.Shell

open Lib List

/-! ### Requests and their encoding -/

structure EnvPair where
  key : List UInt8
  value : List UInt8
  deriving DecidableEq

/-- Nil and empty slices are one list. -/
structure Request where
  executable : List UInt8
  cwd : List UInt8
  args : List (List UInt8)
  env : List EnvPair
  stdin : Bool
  deriving DecidableEq

structure DetachedRequest extends Request where
  stdoutFile : List UInt8
  stderrFile : List UInt8
  deriving DecidableEq

def maxItems : ℕ := 4096

def appendU32 (b : List UInt8) (n : ℕ) : List UInt8 := b ++ beBytes 4 n

/-- `AppendString`: the low 32 bits of the length. -/
def appendString (b s : List UInt8) : List UInt8 := appendU32 b (s.length % 2 ^ 32) ++ s

def encodeStart (r : Request) : List UInt8 :=
  let b := appendString [] r.executable
  let b := appendString b r.cwd
  let b := appendU32 b (r.args.length % 2 ^ 32)
  let b := r.args.foldl appendString b
  let b := appendU32 b (r.env.length % 2 ^ 32)
  let b := r.env.foldl (fun b e => appendString (appendString b e.key) e.value) b
  if r.stdin then b ++ [1] else b ++ [0]

def encodeDetached (r : DetachedRequest) : List UInt8 :=
  appendString (appendString (encodeStart r.toRequest) r.stdoutFile) r.stderrFile

/-! ### The decoder -/

inductive DecodeError where
  | unexpectedEOF
  | new (text : String)
  deriving DecidableEq

/-- The bytes to read and the first error. -/
structure Decoder where
  b : List UInt8
  err : Option DecodeError

/-- `utf8.Valid`. -/
def utf8Valid (p : List UInt8) : Bool := (Utf8.decode p).isSome

namespace Decoder

def u32 (d : Decoder) : ℕ × Decoder :=
  if d.err.isSome then (0, d)
  else if d.b.length < 4 then (0, { d with err := some .unexpectedEOF })
  else (beNat (d.b.take 4), { d with b := d.b.drop 4 })

def str (d : Decoder) : List UInt8 × Decoder :=
  match d.u32 with
  | (n, d) =>
    if d.err.isSome then ([], d)
    else if d.b.length < n then ([], { d with err := some .unexpectedEOF })
    else if !utf8Valid (d.b.take n) || (d.b.take n).contains 0 then
      ([], ⟨d.b.drop n, some (.new "invalid UTF-8 string or embedded NUL")⟩)
    else (d.b.take n, { d with b := d.b.drop n })

def count (d : Decoder) : ℕ × Decoder :=
  match d.u32 with
  | (n, d) =>
    if maxItems < n then (0, { d with err := some (.new "too many items") }) else (n, d)

/-- The loop over the arguments. -/
def argsLoop : ℕ → Decoder → List (List UInt8) → List (List UInt8) × Decoder
  | 0, d, args => (args, d)
  | n + 1, d, args =>
    if d.err.isSome then (args, d) else argsLoop n d.str.2 (args ++ [d.str.1])

/-- An environment key: not empty, without `=`, not seen. -/
def checkKey (d : Decoder) (k : List UInt8) (seen : List (List UInt8)) : Decoder :=
  if k = [] ∨ k.contains 0x3d ∨ seen.contains k then
    { d with err := some (.new "invalid or duplicate environment key") }
  else d

/-- The loop over the environment. -/
def envLoop : ℕ → Decoder → List (List UInt8) → List EnvPair → List EnvPair × Decoder
  | 0, d, _, env => (env, d)
  | n + 1, d, seen, env =>
    if d.err.isSome then (env, d)
    else
      envLoop n (d.str.2.str.2.checkKey d.str.1 seen) (d.str.1 :: seen)
        (env ++ [⟨d.str.1, d.str.2.str.1⟩])

def decodeStart (d : Decoder) : Except DecodeError Request × Decoder :=
  match d.str with
  | (executable, d) =>
  match d.str with
  | (cwd, d) =>
  match d.count with
  | (argc, d) =>
  match argsLoop argc d [] with
  | (args, d) =>
  match d.count with
  | (envc, d) =>
  match envLoop envc d [] [] with
  | (env, d) =>
  match d.err with
  | some e => (.error e, d)
  | none =>
    if executable = [] then (.error (.new "executable is empty"), d)
    else
      match d.b with
      | [] => (.error (.new "invalid stdin flag"), d)
      | flag :: b =>
        if 1 < flag then (.error (.new "invalid stdin flag"), d)
        else (.ok ⟨executable, cwd, args, env, flag == 1⟩, { d with b := b })

end Decoder

def decodeStart (p : List UInt8) : Except DecodeError Request :=
  match (Decoder.mk p none).decodeStart with
  | (.error e, _) => .error e
  | (.ok r, d) => if d.b ≠ [] then .error (.new "trailing START bytes") else .ok r

def decodeDetached (p : List UInt8) : Except DecodeError DetachedRequest :=
  match (Decoder.mk p none).decodeStart with
  | (.error e, _) => .error e
  | (.ok r, d) =>
    if r.stdin then .error (.new "detached stdin must be disabled")
    else
      match d.str with
      | (out, d) =>
      match d.str with
      | (errout, d) =>
      match d.err with
      | some e => .error e
      | none =>
        if d.b ≠ [] then .error (.new "trailing detached START bytes")
        else .ok { r with stdoutFile := out, stderrFile := errout }

/-! ### The encoding as a concatenation of fields -/

def field (s : List UInt8) : List UInt8 := beBytes 4 s.length ++ s

def envField (e : EnvPair) : List UInt8 := field e.key ++ field e.value

lemma appendU32_mod (b : List UInt8) (n : ℕ) : appendU32 b (n % 2 ^ 32) = b ++ beBytes 4 n := by
  rw [appendU32, show (2 ^ 32 : ℕ) = 256 ^ 4 by norm_num, beBytes_mod]

lemma appendString_eq (b s : List UInt8) : appendString b s = b ++ field s := by
  rw [appendString, appendU32_mod, field, append_assoc]

lemma foldl_append_fields {α : Type} {f : List UInt8 → α → List UInt8} {g : α → List UInt8}
    (h : ∀ b a, f b a = b ++ g a) (xs : List α) (b : List UInt8) :
    xs.foldl f b = b ++ xs.flatMap g := by
  induction xs generalizing b with
  | nil => simp
  | cons x xs ih => rw [foldl_cons, ih, h, flatMap_cons, append_assoc]

/-- The encoding, field by field. -/
lemma encodeStart_eq (r : Request) :
    encodeStart r = field r.executable ++ (field r.cwd ++ (beBytes 4 r.args.length ++
      (r.args.flatMap field ++ (beBytes 4 r.env.length ++ (r.env.flatMap envField ++
        [if r.stdin then 1 else 0]))))) := by
  have hargs := foldl_append_fields (f := appendString) appendString_eq r.args
  have henv := foldl_append_fields (g := envField)
    (f := fun b (e : EnvPair) => appendString (appendString b e.key) e.value)
    (fun b e => by simp only [appendString_eq, envField, append_assoc]) r.env
  simp only [encodeStart, hargs, henv]
  simp only [appendU32_mod, appendString_eq]
  cases r.stdin <;> simp [append_assoc]

/-- A detached request has two more fields. -/
lemma encodeDetached_eq (r : DetachedRequest) :
    encodeDetached r = encodeStart r.toRequest ++ (field r.stdoutFile ++ field r.stderrFile) := by
  rw [encodeDetached, appendString_eq, appendString_eq, append_assoc]

/-! ### What a field holds -/

/-- Valid UTF-8 without a zero byte. -/
def IsText (s : List UInt8) : Prop := (∃ cs : List Char, s = Utf8.encode cs) ∧ 0 ∉ s

lemma utf8Valid_iff {s : List UInt8} :
    utf8Valid s = true ↔ ∃ cs : List Char, s = Utf8.encode cs := by
  rw [utf8Valid, Option.isSome_iff_exists]
  exact exists_congr fun _ => Utf8.decode_iff

/-- A text whose length is a `uint32`. -/
def IsField (s : List UInt8) : Prop := IsText s ∧ s.length < 2 ^ 32

namespace Decoder

variable {d d' : Decoder} {n : ℕ}

lemma u32_iff (h : d'.err = none) :
    d.u32 = (n, d') ↔ d.err = none ∧ n < 2 ^ 32 ∧ d.b = beBytes 4 n ++ d'.b := by
  obtain ⟨b, err⟩ := d
  obtain ⟨b', err'⟩ := d'
  obtain rfl : err' = none := h
  cases err with
  | some e => simp [u32]
  | none =>
    simp only [u32, Option.isSome_none, Bool.false_eq_true, if_false]
    constructor
    · intro hu
      split at hu
      · simp at hu
      obtain ⟨rfl, rfl⟩ : beNat (b.take 4) = n ∧ b.drop 4 = b' := by simpa using hu
      have hlen : (b.take 4).length = 4 := by rw [length_take]; omega
      have hlt := beNat_lt (b.take 4)
      rw [hlen] at hlt
      refine ⟨trivial, by simpa using hlt, ?_⟩
      have hround := beBytes_beNat (b.take 4)
      rw [hlen] at hround
      rw [hround, take_append_drop]
    rintro ⟨-, hn, rfl⟩
    have hnat : beNat (beBytes 4 n) = n := beNat_beBytes_of_lt (by simpa using hn)
    rw [if_neg (by simp)]
    simp [take_left', drop_left', hnat]

/-- A string is read when its field is there. -/
lemma str_iff {s : List UInt8} (h : d'.err = none) :
    d.str = (s, d') ↔ d.err = none ∧ IsField s ∧ d.b = field s ++ d'.b := by
  constructor
  · intro hs
    rw [str] at hs
    split at hs
    rename_i n d₁ hu
    split at hs
    · rename_i he
      simp only [Prod.mk.injEq] at hs
      rw [hs.2, h] at he
      simp at he
    rename_i he
    obtain ⟨herr, hn, hb⟩ := (u32_iff (by simpa using he)).mp hu
    split at hs
    · rw [← congrArg (fun x => x.2.err) hs] at h
      simp at h
    rename_i hlen
    split at hs
    · rw [← congrArg (fun x => x.2.err) hs] at h
      simp at h
    rename_i htext
    simp only [Bool.or_eq_true, Bool.not_eq_true', not_or, Bool.not_eq_false,
      contains_eq_mem, decide_eq_true_eq] at htext
    obtain ⟨rfl, rfl⟩ : d₁.b.take n = s ∧ { d₁ with b := d₁.b.drop n } = d' := by simpa using hs
    have hl : (d₁.b.take n).length = n := by
      rw [length_take]
      omega
    refine ⟨herr, ⟨⟨utf8Valid_iff.mp htext.1, htext.2⟩, by rw [hl]; exact hn⟩, ?_⟩
    rw [hb, field, hl, append_assoc, take_append_drop]
  · rintro ⟨herr, ⟨⟨hvalid, hnul⟩, hlen⟩, hb⟩
    have hu : d.u32 = (s.length, ⟨s ++ d'.b, none⟩) :=
      (u32_iff rfl).mpr ⟨herr, hlen, by rw [hb, field, append_assoc]⟩
    have hv : utf8Valid s = true := utf8Valid_iff.mpr hvalid
    obtain ⟨b', err'⟩ := d'
    obtain rfl : err' = none := h
    simp [str, hu, hv, hnul]

lemma str_field {s : List UInt8} (hs : IsField s) (t : List UInt8) :
    (Decoder.mk (field s ++ t) none).str = (s, ⟨t, none⟩) := (str_iff rfl).mpr ⟨rfl, hs, rfl⟩

/-- A number of items is bounded. -/
lemma count_iff (h : d'.err = none) :
    d.count = (n, d') ↔ d.err = none ∧ n ≤ maxItems ∧ d.b = beBytes 4 n ++ d'.b := by
  constructor
  · intro hc
    rw [count] at hc
    split at hc
    rename_i m d₁ hu
    split at hc
    · rw [← congrArg (fun x => x.2.err) hc] at h
      simp at h
    rename_i hm
    obtain ⟨rfl, rfl⟩ : m = n ∧ d₁ = d' := by simpa using hc
    obtain ⟨herr, -, hb⟩ := (u32_iff h).mp hu
    exact ⟨herr, by omega, hb⟩
  rintro ⟨herr, hn, hb⟩
  have hlt : n < 2 ^ 32 := lt_of_le_of_lt hn (by norm_num [maxItems])
  rw [count, (u32_iff h).mpr ⟨herr, hlt, hb⟩]
  exact if_neg (by omega)

lemma count_beBytes (hn : n ≤ maxItems) (t : List UInt8) :
    (Decoder.mk (beBytes 4 n ++ t) none).count = (n, ⟨t, none⟩) :=
  (count_iff rfl).mpr ⟨rfl, hn, rfl⟩

lemma argsLoop_iff {args out : List (List UInt8)} (h : d'.err = none) :
    argsLoop n d args = (out, d') ↔ d.err = none ∧ ∃ xs, out = args ++ xs ∧ xs.length = n ∧
      (∀ x ∈ xs, IsField x) ∧ d.b = xs.flatMap field ++ d'.b := by
  induction n generalizing d args with
  | zero =>
    constructor
    · intro hl
      obtain ⟨rfl, rfl⟩ : args = out ∧ d = d' := by simpa [argsLoop] using hl
      exact ⟨h, [], by simp, rfl, by simp, by simp⟩
    rintro ⟨herr, xs, rfl, hxs, -, hb⟩
    obtain rfl := length_eq_zero_iff.mp hxs
    obtain ⟨b, err⟩ := d
    obtain ⟨b', err'⟩ := d'
    simp_all [argsLoop]
  | succ n ih =>
    rw [argsLoop]
    constructor
    · intro hl
      split at hl
      · rename_i he
        obtain ⟨-, rfl⟩ : args = out ∧ d = d' := by simpa using hl
        simp [h] at he
      obtain ⟨herr, xs, rfl, hlen, hxs, hb⟩ := ih.mp hl
      obtain ⟨herr₀, hfield, hb₀⟩ := (str_iff (s := d.str.1) herr).mp rfl
      refine ⟨herr₀, d.str.1 :: xs, by simp, by simp [hlen], ?_, ?_⟩
      · exact forall_mem_cons.mpr ⟨hfield, hxs⟩
      · rw [hb₀, hb, flatMap_cons, append_assoc]
    rintro ⟨herr, xs, rfl, hlen, hxs, hb⟩
    obtain ⟨x, xs, rfl⟩ := exists_cons_of_length_eq_add_one hlen
    obtain ⟨hx, hxs⟩ := forall_mem_cons.mp hxs
    have hs : d.str = (x, ⟨xs.flatMap field ++ d'.b, none⟩) :=
      (str_iff rfl).mpr ⟨herr, hx, by rw [hb, flatMap_cons, append_assoc]⟩
    rw [if_neg (by simp [herr]), hs]
    exact ih.mpr ⟨rfl, xs, by simp, by simpa using hlen, hxs, rfl⟩

/-- The fields of a list of strings are read. -/
lemma argsLoop_fields {xs : List (List UInt8)} (hxs : ∀ x ∈ xs, IsField x) (t : List UInt8) :
    argsLoop xs.length ⟨xs.flatMap field ++ t, none⟩ [] = (xs, ⟨t, none⟩) :=
  (argsLoop_iff rfl).mpr ⟨rfl, xs, rfl, rfl, hxs, rfl⟩

end Decoder

/-- The key is nonempty and without `=`. -/
structure EnvPair.Ok (e : EnvPair) : Prop where
  key : IsField e.key
  value : IsField e.value
  nonempty : e.key ≠ []
  noEquals : 0x3d ∉ e.key

namespace Decoder

lemma checkKey_iff {d d' : Decoder} {k : List UInt8} {seen : List (List UInt8)}
    (h : d'.err = none) :
    d.checkKey k seen = d' ↔ d = d' ∧ k ≠ [] ∧ 0x3d ∉ k ∧ k ∉ seen := by
  rw [checkKey]
  split
  · rename_i hbad
    constructor
    · intro heq
      rw [← heq] at h
      simp at h
    · rintro ⟨-, h₁, h₂, h₃⟩
      simp_all
  · rename_i hgood
    simp only [not_or, contains_eq_mem, decide_eq_true_eq] at hgood
    exact ⟨fun heq => ⟨heq, hgood⟩, fun heq => heq.1⟩

lemma envLoop_iff {d d' : Decoder} {n : ℕ} {seen : List (List UInt8)} {env out : List EnvPair}
    (h : d'.err = none) :
    envLoop n d seen env = (out, d') ↔ d.err = none ∧ ∃ es, out = env ++ es ∧ es.length = n ∧
      (∀ e ∈ es, e.Ok) ∧ (es.map EnvPair.key).Nodup ∧ (∀ e ∈ es, e.key ∉ seen) ∧
      d.b = es.flatMap envField ++ d'.b := by
  induction n generalizing d seen env with
  | zero =>
    constructor
    · intro hl
      obtain ⟨rfl, rfl⟩ : env = out ∧ d = d' := by simpa [envLoop] using hl
      exact ⟨h, [], by simp, rfl, by simp, by simp, by simp, by simp⟩
    rintro ⟨herr, es, rfl, hes, -, -, -, hb⟩
    obtain rfl := length_eq_zero_iff.mp hes
    obtain ⟨b, err⟩ := d
    obtain ⟨b', err'⟩ := d'
    simp_all [envLoop]
  | succ n ih =>
    rw [envLoop]
    constructor
    · intro hl
      split at hl
      · rename_i he
        obtain ⟨-, rfl⟩ : env = out ∧ d = d' := by simpa using hl
        simp [h] at he
      obtain ⟨herr, es, rfl, hlen, hes, hnodup, hnew, hb⟩ := ih.mp hl
      obtain ⟨heq, hne, heqs, hseen⟩ := (checkKey_iff herr).mp rfl
      rw [← heq] at herr hb
      obtain ⟨herr₁, hvalue, hb₁⟩ := (str_iff (s := d.str.2.str.1) herr).mp rfl
      obtain ⟨herr₀, hkey, hb₀⟩ := (str_iff (s := d.str.1) herr₁).mp rfl
      refine ⟨herr₀, ⟨d.str.1, d.str.2.str.1⟩ :: es, by simp, by simp [hlen], ?_, ?_, ?_, ?_⟩
      · exact forall_mem_cons.mpr ⟨⟨hkey, hvalue, hne, heqs⟩, hes⟩
      · rw [map_cons, nodup_cons]
        refine ⟨?_, hnodup⟩
        rw [mem_map]
        rintro ⟨e, he, hk⟩
        exact hnew e he (hk ▸ mem_cons_self)
      · exact forall_mem_cons.mpr
          ⟨hseen, fun e he hmem => hnew e he (mem_cons_of_mem _ hmem)⟩
      · rw [hb₀, hb₁, hb, flatMap_cons, envField]
        simp only [append_assoc]
    · rintro ⟨herr, es, rfl, hlen, hes, hnodup, hnew, hb⟩
      obtain ⟨e, es, rfl⟩ := exists_cons_of_length_eq_add_one hlen
      obtain ⟨he, hes⟩ := forall_mem_cons.mp hes
      obtain ⟨hnew₀, hnew⟩ := forall_mem_cons.mp hnew
      obtain ⟨hnot, hnodup⟩ := nodup_cons.mp hnodup
      have hk : d.str = (e.key, ⟨field e.value ++ (es.flatMap envField ++ d'.b), none⟩) :=
        (str_iff rfl).mpr ⟨herr, he.key, by
          rw [hb, flatMap_cons, envField]
          simp only [append_assoc]⟩
      have hc := (checkKey_iff (d := ⟨es.flatMap envField ++ d'.b, none⟩) rfl).mpr
        ⟨rfl, he.nonempty, he.noEquals, hnew₀⟩
      rw [if_neg (by simp [herr]), hk]
      simp only [str_field he.value, hc]
      refine ih.mpr ⟨rfl, es, by simp, by simpa using hlen, hes, hnodup, ?_, rfl⟩
      intro e' he'
      rw [mem_cons, not_or]
      refine ⟨fun heq => hnot ?_, hnew e' he'⟩
      rw [← heq]
      exact mem_map_of_mem he'

lemma envLoop_fields {es : List EnvPair} (hes : ∀ e ∈ es, e.Ok)
    (hkeys : (es.map EnvPair.key).Nodup) (t : List UInt8) :
    envLoop es.length ⟨es.flatMap envField ++ t, none⟩ [] [] = (es, ⟨t, none⟩) :=
  (envLoop_iff rfl).mpr ⟨rfl, es, rfl, rfl, hes, hkeys, by simp, rfl⟩

end Decoder

/-! ### The decoder inverts the encoder -/

/-- The strings are texts, the counts within `maxItems`, the keys distinct and well formed. -/
structure Request.Ok (r : Request) : Prop where
  executable : IsText r.executable
  nonempty : r.executable ≠ []
  cwd : IsText r.cwd
  args : ∀ a ∈ r.args, IsText a
  argc : r.args.length ≤ maxItems
  env : ∀ e ∈ r.env, IsText e.key ∧ IsText e.value ∧ e.key ≠ [] ∧ 0x3d ∉ e.key
  envc : r.env.length ≤ maxItems
  keys : (r.env.map EnvPair.key).Nodup

/-- Every string is shorter than 2^32 bytes. -/
structure Request.Short (r : Request) : Prop where
  executable : r.executable.length < 2 ^ 32
  cwd : r.cwd.length < 2 ^ 32
  args : ∀ a ∈ r.args, a.length < 2 ^ 32
  env : ∀ e ∈ r.env, e.key.length < 2 ^ 32 ∧ e.value.length < 2 ^ 32

lemma eq_zero_or_one {flag : UInt8} (h : ¬1 < flag) : flag = 0 ∨ flag = 1 := by
  have hle : flag.toNat ≤ 1 := UInt8.le_iff_toNat_le.mp (UInt8.not_lt.mp h)
  rcases Nat.le_one_iff_eq_zero_or_eq_one.mp hle with h | h
  · exact .inl (UInt8.toNat_inj.mp h)
  · exact .inr (UInt8.toNat_inj.mp h)

theorem Decoder.decodeStart_iff {b : List UInt8} {d' : Decoder} {r : Request} :
    (Decoder.mk b none).decodeStart = (.ok r, d') ↔
      d'.err = none ∧ r.Ok ∧ r.Short ∧ b = encodeStart r ++ d'.b := by
  constructor
  · intro hd
    rw [Decoder.decodeStart] at hd
    split at hd
    rename_i executable d₁ hexe
    split at hd
    rename_i cwd d₂ hcwd
    split at hd
    rename_i argc d₃ hargc
    split at hd
    rename_i args d₄ hargs
    split at hd
    rename_i envc d₅ henvc
    split at hd
    rename_i env d₆ henv
    split at hd
    · cases hd
    rename_i herr₆
    split at hd
    · cases hd
    rename_i hne
    split at hd
    · cases hd
    rename_i flag rest hrest
    split at hd
    · cases hd
    rename_i hflag
    obtain ⟨herr₅, es, hout, rfl, hes, hnodup, -, hb₅⟩ := (envLoop_iff herr₆).mp henv
    obtain ⟨herr₄, henvc, hb₄⟩ := (count_iff herr₅).mp henvc
    obtain ⟨herr₃, xs, hout', rfl, hxs, hb₃⟩ := (argsLoop_iff herr₄).mp hargs
    obtain ⟨herr₂, hargc, hb₂⟩ := (count_iff herr₃).mp hargc
    obtain ⟨herr₁, hcwd, hb₁⟩ := (str_iff herr₂).mp hcwd
    obtain ⟨-, hexe, hb₀⟩ := (str_iff herr₁).mp hexe
    rw [nil_append] at hout hout'
    subst hout hout'
    simp only [Prod.mk.injEq, Except.ok.injEq] at hd
    obtain ⟨rfl, rfl⟩ := hd
    refine ⟨herr₆, ⟨hexe.1, hne, hcwd.1, fun a ha => (hxs a ha).1, hargc, ?_, henvc, hnodup⟩,
      ⟨hexe.2, hcwd.2, fun a ha => (hxs a ha).2, ?_⟩, ?_⟩
    · exact fun e he => ⟨(hes e he).key.1, (hes e he).value.1, (hes e he).nonempty,
        (hes e he).noEquals⟩
    · exact fun e he => ⟨(hes e he).key.2, (hes e he).value.2⟩
    have hbit : (if (flag == 1) = true then (1 : UInt8) else 0) = flag := by
      rcases eq_zero_or_one hflag with rfl | rfl <;> rfl
    change b = _ at hb₀
    rw [encodeStart_eq, hb₀, hb₁, hb₂, hb₃, hb₄, hb₅, hrest, hbit]
    simp only [append_assoc, cons_append, nil_append]
  · rintro ⟨herr, hok, hshort, rfl⟩
    have hargs : ∀ a ∈ r.args, IsField a := fun a ha => ⟨hok.args a ha, hshort.args a ha⟩
    have henv : ∀ e ∈ r.env, e.Ok := fun e he =>
      ⟨⟨(hok.env e he).1, (hshort.env e he).1⟩, ⟨(hok.env e he).2.1, (hshort.env e he).2⟩,
        (hok.env e he).2.2.1, (hok.env e he).2.2.2⟩
    obtain ⟨b', err'⟩ := d'
    obtain rfl : err' = none := herr
    -- each read takes its field off the front of what is left
    simp only [encodeStart_eq, append_assoc]
    rw [Decoder.decodeStart]
    simp only [str_field ⟨hok.executable, hshort.executable⟩, str_field ⟨hok.cwd, hshort.cwd⟩,
      count_beBytes hok.argc, argsLoop_fields hargs, count_beBytes hok.envc,
      envLoop_fields henv hok.keys, hok.nonempty]
    obtain ⟨executable, cwd, args, env, stdin⟩ := r
    cases stdin <;> rfl

theorem decodeStart_iff {p : List UInt8} {r : Request} :
    decodeStart p = .ok r ↔ r.Ok ∧ r.Short ∧ p = encodeStart r := by
  constructor
  · intro hd
    unfold decodeStart at hd
    split at hd
    · cases hd
    rename_i r' d' hstart
    split at hd
    · cases hd
    rename_i hrest
    obtain rfl : r' = r := by simpa using hd
    obtain ⟨-, hok, hshort, hb⟩ := Decoder.decodeStart_iff.mp hstart
    rw [not_not.mp hrest, append_nil] at hb
    exact ⟨hok, hshort, hb⟩
  rintro ⟨hok, hshort, rfl⟩
  have hstart : (Decoder.mk (encodeStart r) none).decodeStart = (.ok r, ⟨[], none⟩) :=
    Decoder.decodeStart_iff.mpr ⟨rfl, hok, hshort, by simp⟩
  unfold decodeStart
  rw [hstart]
  exact if_neg (by simp)

/-- The standard input is off, the files' names are texts. -/
structure DetachedRequest.Ok (r : DetachedRequest) : Prop where
  request : r.toRequest.Ok
  noStdin : r.stdin = false
  stdoutFile : IsText r.stdoutFile
  stderrFile : IsText r.stderrFile

structure DetachedRequest.Short (r : DetachedRequest) : Prop where
  request : r.toRequest.Short
  stdoutFile : r.stdoutFile.length < 2 ^ 32
  stderrFile : r.stderrFile.length < 2 ^ 32

theorem decodeDetached_iff {p : List UInt8} {r : DetachedRequest} :
    decodeDetached p = .ok r ↔ r.Ok ∧ r.Short ∧ p = encodeDetached r := by
  constructor
  · intro hd
    unfold decodeDetached at hd
    split at hd
    · cases hd
    rename_i r' d hstart
    split at hd
    · cases hd
    rename_i hstdin
    split at hd
    rename_i out d₁ hout
    split at hd
    rename_i errout d₂ herrout
    split at hd
    · cases hd
    rename_i herr
    split at hd
    · cases hd
    rename_i hrest
    obtain ⟨herr₁, herrout, hb₁⟩ := (Decoder.str_iff herr).mp herrout
    obtain ⟨herr₀, hout, hb₀⟩ := (Decoder.str_iff herr₁).mp hout
    obtain ⟨-, hok, hshort, hb⟩ := Decoder.decodeStart_iff.mp hstart
    cases hd
    refine ⟨⟨hok, by simpa using hstdin, hout.1, herrout.1⟩, ⟨hshort, hout.2, herrout.2⟩, ?_⟩
    rw [encodeDetached_eq, hb, hb₀, hb₁, not_not.mp hrest, append_nil]
  · rintro ⟨hok, hshort, rfl⟩
    have hstart : (Decoder.mk (encodeDetached r) none).decodeStart
        = (.ok r.toRequest, ⟨field r.stdoutFile ++ field r.stderrFile, none⟩) :=
      Decoder.decodeStart_iff.mpr ⟨rfl, hok.request, hshort.request, encodeDetached_eq r⟩
    have hout := Decoder.str_field ⟨hok.stdoutFile, hshort.stdoutFile⟩ (field r.stderrFile)
    have herr := Decoder.str_field ⟨hok.stderrFile, hshort.stderrFile⟩ []
    rw [append_nil] at herr
    unfold decodeDetached
    rw [hstart]
    simp only [hok.noStdin, hout, herr, Bool.false_eq_true, if_false, ne_eq, not_true]

end OhecoBroker.Shell
