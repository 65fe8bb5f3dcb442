/-
START payloads of the C shell client (`encode_start` of `oheco_broker.c`), against the Go encoder
and decoder.

* `ObOptions`, `size`, `write`, `encodeStart`: the options, and the code;
* `size_spec`: the size that is counted is the length of the encoding;
* `encodeStart_spec`: a payload is the Go encoding of a sendable request;
* `start_codec`: **START encodings are canonical and interoperable**;
* `start_codec_long_string`: a string of 2^32 bytes does not survive.
-/
import OhecoBroker.Lib.Checked
import OhecoBroker.Shell.Start

namespace OhecoBroker.Shell

open Lib List

lemma utf8_iff_isText {s : List UInt8} : utf8 s = true ↔ IsText s := by
  rw [utf8_iff, IsText]
  constructor
  · rintro ⟨cs, hcs, rfl⟩
    refine ⟨⟨cs, rfl⟩, fun h0 => ?_⟩
    exact hcs _ (Utf8.zero_mem_encode.mp h0) rfl
  rintro ⟨⟨cs, rfl⟩, h0⟩
  refine ⟨cs, ?_, rfl⟩
  rintro c hc rfl
  exact h0 (Utf8.zero_mem_encode.mpr hc)

namespace Client

/-! ### Options -/

/-- The bytes before the terminating zero. -/
structure CString where
  bytes : List UInt8
  noNul : 0 ∉ bytes

def CString.empty : CString := ⟨[], not_mem_nil⟩

inductive ObError where
  | ok | unavailable | protocol | spawnFailed | connectionLost | invalidArgument | timeout | io
  | limit
  deriving DecidableEq

/-- A pointer that may be `NULL` is an option. -/
structure ObEnv where
  key : Option CString
  value : Option CString

/-- The arrays are read below `argc` and `envc` only. -/
structure ObOptions where
  executable : Option CString
  cwd : Option CString
  args : Option (ℕ → Option CString)
  argc : ℕ
  env : Option (ℕ → ObEnv)
  envc : ℕ
  stdinEnabled : ℤ

def ObOptions.arg (o : ObOptions) (i : ℕ) : Option CString := o.args.bind fun args => args i

def ObOptions.envAt (o : ObOptions) (i : ℕ) : ObEnv :=
  match o.env with
  | some env => env i
  | none => ⟨none, none⟩

/-- The bytes of a string pointer, none for `NULL`. -/
def text (s : Option CString) : List UInt8 := (s.map CString.bytes).getD []

/-! ### `encode_start` -/

def maxFrame : ℕ := 1048576

def put32 (p : List UInt8) (v : ℕ) : List UInt8 :=
  p ++ [UInt8.ofNat (v >>> 24), UInt8.ofNat (v >>> 16), UInt8.ofNat (v >>> 8), UInt8.ofNat v]

/-- `put_string`. -/
def putString (p : List UInt8) (s : Option CString) : List UInt8 :=
  put32 p ((text s).length % 2 ^ 32) ++ text s

def sizeString (s : Option CString) (total : ℕ) : Except ObError ℕ := do
  let s ← found s .invalidArgument
  reject (utf8 s.bytes = false) .invalidArgument
  reject (maxFrame - 4 < s.bytes.length ∨ maxFrame - 4 - s.bytes.length < total) .limit
  pure (total + (4 + s.bytes.length))

def sizeEnv (o : ObOptions) (total i : ℕ) : Except ObError ℕ := do
  let key ← found (o.envAt i).key .invalidArgument
  reject (key.bytes = [] ∨ key.bytes.contains 0x3d) .invalidArgument
  reject ((List.range i).any fun j => key.bytes = text (o.envAt j).key) .invalidArgument
  let total ← sizeString (o.envAt i).key total
  sizeString (o.envAt i).value total

def sizeFile (detached : Bool) (file : Option CString) (total : ℕ) : Except ObError ℕ :=
  if detached then sizeString file total else pure total

def size (o : ObOptions) (detached : Bool) (stdoutFile stderrFile : Option CString) :
    Except ObError ℕ := do
  let n ← sizeString o.executable 9
  let n ← sizeString (some (o.cwd.getD .empty)) n
  let n ← (List.range o.argc).foldlM (fun n i => sizeString (o.arg i) n) n
  let n ← (List.range o.envc).foldlM (sizeEnv o) n
  let n ← sizeFile detached stdoutFile n
  sizeFile detached stderrFile n

def write (o : ObOptions) (detached : Bool) (stdoutFile stderrFile : Option CString) :
    List UInt8 :=
  let p := putString [] o.executable
  let p := putString p (some (o.cwd.getD .empty))
  let p := put32 p (o.argc % 2 ^ 32)
  let p := (List.range o.argc).foldl (fun p i => putString p (o.arg i)) p
  let p := put32 p (o.envc % 2 ^ 32)
  let p := (List.range o.envc).foldl
    (fun p i => putString (putString p (o.envAt i).key) (o.envAt i).value) p
  let p := p ++ [UInt8.ofNat (o.stdinEnabled % 256).toNat]
  if detached then putString (putString p stdoutFile) stderrFile else p

/-- `encode_start`: the payload and its size, or the error. -/
def encodeStart (o : Option ObOptions) (detached : Bool) (stdoutFile stderrFile : Option CString)
    (malloc : Bool) : Except ObError (List UInt8 × ℕ) := do
  let o ← found o .invalidArgument
  let executable ← found o.executable .invalidArgument
  reject (executable.bytes = []) .invalidArgument
  reject (4096 < o.argc ∨ 4096 < o.envc) .invalidArgument
  reject ((o.argc ≠ 0 ∧ o.args.isNone) ∨ (o.envc ≠ 0 ∧ o.env.isNone)) .invalidArgument
  reject (o.stdinEnabled ≠ 0 ∧ o.stdinEnabled ≠ 1) .invalidArgument
  reject (detached ∧ o.stdinEnabled ≠ 0) .invalidArgument
  let n ← size o detached stdoutFile stderrFile
  reject (malloc = false) .io
  pure (write o detached stdoutFile stderrFile, n)

/-! ### The size that is counted -/

lemma put32_eq (p : List UInt8) (v : ℕ) : put32 p v = p ++ beBytes 4 v := by
  simp [put32, beBytes, Nat.shiftRight_eq_div_pow]

lemma put32_mod (p : List UInt8) (n : ℕ) : put32 p (n % 2 ^ 32) = p ++ beBytes 4 n := by
  rw [put32_eq]
  exact appendU32_mod p n

/-- A string is written as a field. -/
lemma putString_eq (p : List UInt8) (s : Option CString) : putString p s = p ++ field (text s) := by
  rw [putString, put32_mod, field, append_assoc]

lemma length_field (s : List UInt8) : (field s).length = 4 + s.length := by
  simp [field]

variable {n m : ℕ} {o : ObOptions} {out err : Option CString} {malloc : Bool}

lemma sizeString_iff {s : Option CString} : sizeString s n = .ok m ↔
      IsText (text s) ∧ s.isSome ∧ m = n + (field (text s)).length ∧ m ≤ maxFrame := by
  cases s with
  | none => simp [sizeString, found_none]
  | some s =>
    have htext : text (some s) = s.bytes := rfl
    simp only [sizeString, found_some, ok_bind, bind_eq_ok, reject_eq_ok, exists_unit, pure_eq_ok,
      Bool.not_eq_false, utf8_iff_isText, htext, length_field, Option.isSome_some, true_and]
    refine and_congr_right fun _ => ?_
    rw [show maxFrame = 1048576 from rfl]
    omega

lemma foldlM_size {f : ℕ → ℕ → Except ObError ℕ} {P : ℕ → Prop} {g : ℕ → List UInt8}
    (h : ∀ n i m, f n i = .ok m → P i ∧ m = n + (g i).length ∧ m ≤ maxFrame) (is : List ℕ)
    (hn : n ≤ maxFrame) (hf : is.foldlM f n = .ok m) :
    (∀ i ∈ is, P i) ∧ m = n + (is.flatMap g).length ∧ m ≤ maxFrame := by
  induction is generalizing n with
  | nil =>
    obtain rfl : n = m := by simpa using hf
    exact ⟨by simp, by simp, hn⟩
  | cons i is ih =>
    rw [foldlM_cons, bind_eq_ok] at hf
    obtain ⟨k, hk, hf⟩ := hf
    obtain ⟨hP, rfl, hle⟩ := h n i k hk
    obtain ⟨hPs, rfl, hle'⟩ := ih hle hf
    refine ⟨forall_mem_cons.mpr ⟨hP, hPs⟩, ?_, hle'⟩
    rw [flatMap_cons, length_append]
    omega

def ObOptions.pair (o : ObOptions) (i : ℕ) : EnvPair :=
  ⟨text (o.envAt i).key, text (o.envAt i).value⟩

/-- What a turn of the environment loop checks. -/
structure EnvOk (o : ObOptions) (i : ℕ) : Prop where
  key : IsText (o.pair i).key
  value : IsText (o.pair i).value
  nonempty : (o.pair i).key ≠ []
  noEquals : 0x3d ∉ (o.pair i).key
  fresh : ∀ j < i, (o.pair i).key ≠ (o.pair j).key

lemma sizeEnv_spec {i : ℕ} (h : sizeEnv o n i = .ok m) :
    EnvOk o i ∧ m = n + (envField (o.pair i)).length ∧ m ≤ maxFrame := by
  simp only [sizeEnv, bind_eq_ok, found_eq_ok, reject_eq_ok, exists_unit, not_or,
    contains_eq_mem, decide_eq_true_eq, any_eq_true, mem_range, not_exists,
    not_and, sizeString_iff] at h
  obtain ⟨key, hkey, ⟨hne, heq⟩, hfresh, k, ⟨hk, -, rfl, -⟩, hv, -, rfl, hle⟩ := h
  have htext : (o.pair i).key = key.bytes := by
    rw [ObOptions.pair, hkey]
    rfl
  refine ⟨⟨hk, hv, by rwa [htext], by rwa [htext], ?_⟩, ?_, hle⟩
  · intro j hj
    rw [htext]
    exact hfresh j hj
  · rw [envField, length_append]
    exact Nat.add_assoc _ _ _

def ObOptions.request (o : ObOptions) : Request where
  executable := text o.executable
  cwd := text o.cwd
  args := (List.range o.argc).map fun i => text (o.arg i)
  env := (List.range o.envc).map o.pair
  stdin := o.stdinEnabled = 1

def ObOptions.detached (o : ObOptions) (stdoutFile stderrFile : Option CString) : DetachedRequest :=
  { o.request with stdoutFile := text stdoutFile, stderrFile := text stderrFile }

/-- What the size count checks of the options. -/
structure Counted (o : ObOptions) : Prop where
  executable : IsText (text o.executable)
  cwd : IsText (text o.cwd)
  args : ∀ i < o.argc, IsText (text (o.arg i))
  env : ∀ i < o.envc, EnvOk o i

lemma text_cwd (o : ObOptions) : text (some (o.cwd.getD .empty)) = text o.cwd := by
  cases h : o.cwd <;> rfl

/-- The length of the Go encoding. -/
lemma length_encodeStart (o : ObOptions) :
    (Shell.encodeStart o.request).length = 9 + (field (text o.executable)).length
      + (field (text o.cwd)).length
      + ((List.range o.argc).flatMap fun i => field (text (o.arg i))).length
      + ((List.range o.envc).flatMap fun i => envField (o.pair i)).length := by
  rw [encodeStart_eq]
  simp only [ObOptions.request, length_append, length_beBytes, flatMap_map,
    length_singleton]
  omega

lemma size_spec {detached : Bool} (h : size o detached out err = .ok n) : Counted o ∧ n ≤ maxFrame ∧
      (detached = false → n = (Shell.encodeStart o.request).length) ∧
      (detached = true → IsText (text out) ∧ IsText (text err) ∧
        n = (encodeDetached (o.detached out err)).length) := by
  rw [size, bind_eq_ok] at h
  obtain ⟨n₁, h₁, h⟩ := h
  obtain ⟨n₂, h₂, h⟩ := bind_eq_ok.mp h
  obtain ⟨n₃, h₃, h⟩ := bind_eq_ok.mp h
  obtain ⟨n₄, h₄, h⟩ := bind_eq_ok.mp h
  obtain ⟨n₅, h₅, h₆⟩ := bind_eq_ok.mp h
  obtain ⟨hexe, -, rfl, -⟩ := sizeString_iff.mp h₁
  obtain ⟨hcwd, -, rfl, hle₂⟩ := sizeString_iff.mp h₂
  obtain ⟨hargs, rfl, hle₃⟩ := foldlM_size (P := fun i => IsText (text (o.arg i)))
    (g := fun i => field (text (o.arg i)))
    (fun n i m hm => ⟨(sizeString_iff.mp hm).1, (sizeString_iff.mp hm).2.2⟩) _ hle₂ h₃
  obtain ⟨henv, hn₄, hle₄⟩ := foldlM_size (fun n i m hm => sizeEnv_spec hm) _ hle₃ h₄
  rw [text_cwd] at hcwd hn₄
  rw [← length_encodeStart] at hn₄
  refine ⟨⟨hexe, hcwd, fun i hi => hargs i (mem_range.mpr hi),
    fun i hi => henv i (mem_range.mpr hi)⟩, ?_⟩
  cases detached with
  | false =>
    obtain rfl : n₄ = n₅ := by simpa [sizeFile] using h₅
    obtain rfl : n₄ = n := by simpa [sizeFile] using h₆
    exact ⟨hle₄, fun _ => hn₄, (by rintro ⟨⟩)⟩
  | true =>
    obtain ⟨hout, -, rfl, -⟩ := sizeString_iff.mp (by simpa [sizeFile] using h₅)
    obtain ⟨herr, -, rfl, hle⟩ := sizeString_iff.mp (by simpa [sizeFile] using h₆)
    refine ⟨hle, (by rintro ⟨⟩), fun _ => ⟨hout, herr, ?_⟩⟩
    rw [encodeDetached_eq, length_append, length_append, hn₄]
    exact Nat.add_assoc _ _ _

/-! ### The bytes that are written -/

lemma write_eq (o : ObOptions) (hflag : o.stdinEnabled = 0 ∨ o.stdinEnabled = 1)
    (out err : Option CString) :
    write o false out err = Shell.encodeStart o.request ∧
      write o true out err = encodeDetached (o.detached out err) := by
  have hargs := foldl_append_fields (f := fun p i => putString p (o.arg i))
    (fun b i => putString_eq b (o.arg i)) (List.range o.argc)
  have henv := foldl_append_fields (g := fun i => envField (o.pair i))
    (f := fun p i => putString (putString p (o.envAt i).key) (o.envAt i).value)
    (fun b i => by simp only [putString_eq, envField, ObOptions.pair, append_assoc])
    (List.range o.envc)
  have hbit : UInt8.ofNat (o.stdinEnabled % 256).toNat = if o.request.stdin then 1 else 0 := by
    rcases hflag with h | h <;> rw [ObOptions.request, h] <;> rfl
  have hwrite : write o false out err = Shell.encodeStart o.request := by
    simp only [write, hargs, henv]
    simp only [putString_eq, put32_mod, text_cwd, hbit, encodeStart_eq, append_assoc]
    simp [ObOptions.request, flatMap_map]
  refine ⟨hwrite, ?_⟩
  have hlast : write o true out err = putString (putString (write o false out err) out) err := rfl
  rw [hlast, hwrite, putString_eq, putString_eq, encodeDetached_eq, append_assoc]
  rfl

lemma Counted.request_ok (h : Counted o) (hne : text o.executable ≠ [])
    (hargc : o.argc ≤ 4096) (henvc : o.envc ≤ 4096) : o.request.Ok where
  __ := h
  nonempty := hne
  args := by
    intro a ha
    obtain ⟨i, hi, rfl⟩ := mem_map.mp ha
    exact h.args i (mem_range.mp hi)
  argc := by simpa [ObOptions.request, maxItems] using hargc
  env := by
    intro e he
    obtain ⟨i, hi, rfl⟩ := mem_map.mp he
    have henv := h.env i (mem_range.mp hi)
    exact ⟨henv.key, henv.value, henv.nonempty, henv.noEquals⟩
  envc := by simpa [ObOptions.request, maxItems] using henvc
  keys := by
    rw [ObOptions.request, map_map]
    refine List.Nodup.map_on ?_ nodup_range
    intro i hi j hj heq
    rcases Nat.lt_trichotomy i j with hlt | rfl | hlt
    · exact absurd heq.symm ((h.env j (mem_range.mp hj)).fresh i hlt)
    · rfl
    · exact absurd heq ((h.env i (mem_range.mp hi)).fresh j hlt)

lemma length_le_flatMap {α : Type} {g : α → List UInt8} {xs : List α} {x : α} (h : x ∈ xs) :
    (g x).length ≤ (xs.flatMap g).length := by
  rw [length_flatMap]
  exact le_sum_of_mem (mem_map_of_mem h)

lemma short_of_length {r : Request} (h : (Shell.encodeStart r).length ≤ maxFrame) : r.Short := by
  have hmax : maxFrame < 2 ^ 32 := by norm_num [maxFrame]
  rw [encodeStart_eq] at h
  simp only [length_append, length_field] at h
  refine ⟨by omega, by omega, fun a ha => ?_, fun e he => ?_⟩
  · have := length_le_flatMap (g := field) ha
    rw [length_field] at this
    omega
  · have := length_le_flatMap (g := envField) he
    rw [envField, length_append, length_field, length_field] at this
    omega

/-- The checks before the count. -/
structure Checked (o : ObOptions) : Prop where
  nonempty : text o.executable ≠ []
  argc : o.argc ≤ 4096
  envc : o.envc ≤ 4096
  flag : o.stdinEnabled = 0 ∨ o.stdinEnabled = 1

lemma encodeStart_cases {detached : Bool} {payload : List UInt8}
    (h : encodeStart (some o) detached out err malloc = .ok (payload, n)) :
    Checked o ∧ (detached = true → o.stdinEnabled = 0) ∧ size o detached out err = .ok n ∧
      payload = write o detached out err := by
  simp only [encodeStart, found_some, ok_bind, bind_eq_ok, found_eq_ok, reject_eq_ok, exists_unit,
    pure_eq_ok, Prod.mk.injEq, not_or, not_lt, not_and, not_not] at h
  obtain ⟨executable, hexe, hne, ⟨hargc, henvc⟩, -, hflag, hdet, m, hsize, -, rfl, rfl⟩ := h
  refine ⟨⟨by rw [hexe]; exact hne, hargc, henvc, ?_⟩, hdet, hsize, rfl⟩
  by_cases h0 : o.stdinEnabled = 0
  · exact .inl h0
  · exact .inr (hflag h0)

theorem encodeStart_spec {payload : List UInt8}
    (h : encodeStart (some o) false out err malloc = .ok (payload, n)) :
    payload = Shell.encodeStart o.request ∧ n = payload.length ∧ n ≤ maxFrame ∧
      o.request.Ok ∧ o.request.Short := by
  obtain ⟨hchecked, -, hsize, rfl⟩ := encodeStart_cases h
  obtain ⟨hcounted, hle, hlen, -⟩ := size_spec hsize
  rw [(write_eq o hchecked.flag out err).1]
  refine ⟨rfl, hlen rfl, hle, ?_, short_of_length (hlen rfl ▸ hle)⟩
  exact hcounted.request_ok hchecked.nonempty hchecked.argc hchecked.envc

theorem encodeStart_detached_spec {payload : List UInt8}
    (h : encodeStart (some o) true out err malloc = .ok (payload, n)) :
    payload = encodeDetached (o.detached out err) ∧ n = payload.length ∧ n ≤ maxFrame ∧
      (o.detached out err).Ok ∧ (o.detached out err).Short := by
  have hmax : maxFrame < 2 ^ 32 := by norm_num [maxFrame]
  obtain ⟨hchecked, hdet, hsize, rfl⟩ := encodeStart_cases h
  obtain ⟨hcounted, hle, -, hfiles⟩ := size_spec hsize
  obtain ⟨hout, herr, hlen⟩ := hfiles rfl
  rw [(write_eq o hchecked.flag out err).2]
  have hstdin : o.request.stdin = false := by simp [ObOptions.request, hdet rfl]
  have hlong := hlen ▸ hle
  rw [encodeDetached_eq, length_append, length_append, length_field,
    length_field] at hlong
  refine ⟨rfl, hlen, hle, ⟨?_, hstdin, hout, herr⟩, ⟨short_of_length ?_, ?_, ?_⟩⟩
  · exact hcounted.request_ok hchecked.nonempty hchecked.argc hchecked.envc
  · exact (Nat.le_add_right _ _).trans hlong
  · omega
  · omega

end Client

/-- **START encodings are canonical and interoperable.** What Go decodes is the encoding of the
result; Go decodes every sendable request of short strings; and a payload of the C client is the
Go encoding of its request. -/
theorem start_codec :
    (∀ p r, decodeStart p = .ok r → encodeStart r = p) ∧
    (∀ p r, decodeDetached p = .ok r → encodeDetached r = p) ∧
    (∀ r : Request, r.Ok → r.Short → decodeStart (encodeStart r) = .ok r) ∧
    (∀ r : DetachedRequest, r.Ok → r.Short → decodeDetached (encodeDetached r) = .ok r) ∧
    (∀ (o : Client.ObOptions) out err malloc payload n,
      Client.encodeStart (some o) false out err malloc = .ok (payload, n) →
        payload = encodeStart o.request ∧ n = payload.length ∧ payload.length ≤ 1048576 ∧
          decodeStart payload = .ok o.request) ∧
    (∀ (o : Client.ObOptions) out err malloc payload n,
      Client.encodeStart (some o) true out err malloc = .ok (payload, n) →
        payload = encodeDetached (o.detached out err) ∧ n = payload.length ∧
          payload.length ≤ 1048576 ∧ decodeDetached payload = .ok (o.detached out err)) := by
  refine ⟨?_, ?_, ?_, ?_, ?_, ?_⟩
  · exact fun p r h => (decodeStart_iff.mp h).2.2.symm
  · exact fun p r h => (decodeDetached_iff.mp h).2.2.symm
  · exact fun r hok hshort => decodeStart_iff.mpr ⟨hok, hshort, rfl⟩
  · exact fun r hok hshort => decodeDetached_iff.mpr ⟨hok, hshort, rfl⟩
  · intro o out err malloc payload n h
    obtain ⟨heq, hlen, hle, hok, hshort⟩ := Client.encodeStart_spec h
    exact ⟨heq, hlen, hlen ▸ hle, decodeStart_iff.mpr ⟨hok, hshort, heq⟩⟩
  · intro o out err malloc payload n h
    obtain ⟨heq, hlen, hle, hok, hshort⟩ := Client.encodeStart_detached_spec h
    exact ⟨heq, hlen, hlen ▸ hle, decodeDetached_iff.mpr ⟨hok, hshort, heq⟩⟩

lemma isText_replicate (n : ℕ) : IsText (List.replicate n 0x61) := by
  refine ⟨⟨List.replicate n 'a', ?_⟩, fun h => ?_⟩
  · induction n with
    | zero => rfl
    | succ n ih =>
      rw [replicate_succ, replicate_succ, Utf8.encode_cons, ← ih]
      rfl
  · exact absurd (eq_of_mem_replicate h) (by decide)

def lsRequest : Request where
  executable := [0x6c, 0x73]
  cwd := []
  args := [[0x2d, 0x6c]]
  env := [⟨[0x4c, 0x43], [0x43]⟩]
  stdin := true

/-- `ls -l` with one variable. -/
theorem start_codec_ls : decodeStart (encodeStart lsRequest) = .ok lsRequest := by
  have hok : lsRequest.Ok := by
    have htext : ∀ s ∈ [[0x6c, 0x73], [], [0x2d, 0x6c], [0x4c, 0x43], [0x43]], IsText s := by
      intro s hs
      have hall : ∀ s ∈ [[0x6c, 0x73], [], [0x2d, 0x6c], [0x4c, 0x43], [0x43]], utf8 s = true := by
        decide +kernel
      exact utf8_iff_isText.mp (hall s hs)
    refine ⟨htext _ (by simp [lsRequest]), by simp [lsRequest], htext _ (by simp [lsRequest]), ?_,
      by simp [lsRequest, maxItems], ?_, by simp [lsRequest, maxItems], by simp [lsRequest]⟩
    · intro a ha
      obtain rfl : a = [0x2d, 0x6c] := by simpa [lsRequest] using ha
      exact htext _ (by simp)
    · intro e he
      obtain rfl : e = ⟨[0x4c, 0x43], [0x43]⟩ := by simpa [lsRequest] using he
      exact ⟨htext _ (by simp), htext _ (by simp), by simp, by decide⟩
  have hshort : lsRequest.Short := Client.short_of_length (by simp [encodeStart_eq, lsRequest,
    field, envField, Client.maxFrame])
  exact start_codec.2.2.1 lsRequest hok hshort

/-- A string of 2^32 bytes is announced as empty, so the request does not come back. -/
theorem start_codec_long_string :
    ∃ r : Request, r.Ok ∧ decodeStart (encodeStart r) ≠ .ok r := by
  obtain ⟨n, hn⟩ : ∃ n, n = 2 ^ 32 := ⟨_, rfl⟩
  have hne : List.replicate n (0x61 : UInt8) ≠ [] := by
    rw [Ne, replicate_eq_nil_iff]
    omega
  have hempty : IsText [] := isText_replicate 0
  refine ⟨⟨List.replicate n 0x61, [], [], [], false⟩, ?_, fun h => ?_⟩
  · exact ⟨isText_replicate n, hne, hempty, by simp, by simp [maxItems], by simp,
      by simp [maxItems], by simp⟩
  · have hshort := (decodeStart_iff.mp h).2.1.executable
    rw [length_replicate] at hshort
    omega

end OhecoBroker.Shell
