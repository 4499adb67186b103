import NeuralSoc.Base.Dict
import Mathlib.Algebra.Order.Field.Rat
import Mathlib.Data.List.Sort

/-!
# The replay of a packet capture

`ingest_pcap` of `ingest/pcap_ingester.py` on a capture that is read to its end, with sends that succeed.
The keys of the flow table are texts of two addresses, two ports and the protocol; an IPv4 address is
printed as numbers and dots, so the texts are as different as what they are made of. The records sent are
far below the 5 MB of `_emit_flow`.
-/

namespace NeuralSoc.Pcap

abbrev Address := BitVec 32

abbrev Port := BitVec 16

inductive Proto where
  | tcp
  | udp
  deriving DecidableEq, Repr

/-- What the extractors read of a DNS layer. -/
structure Dns where
  qr : ℕ
  qdcount : ℕ
  /-- the decoded name and the type of the first question -/
  question : Option (String × ℕ)
  rcode : ℕ

structure Ip where
  src : Address
  dst : Address
  dns : Option Dns
  /-- the TCP or UDP layer with its ports -/
  layer : Option (Proto × Port × Port)

structure Packet where
  len : ℕ
  time : ℚ
  ip : Option Ip
  /-- the IP header is part of the packet -/
  header : ip.isSome = true → 20 ≤ len

structure FlowKey where
  src : Address
  srcPort : Port
  dst : Address
  dstPort : Port
  proto : Proto
  deriving DecidableEq

def FlowKey.reverse (k : FlowKey) : FlowKey := ⟨k.dst, k.dstPort, k.src, k.srcPort, k.proto⟩

/-- A record of the table; the constant fields are left out. -/
structure Flow where
  startTime : ℚ
  origPkts : ℕ
  origBytes : ℕ
  respPkts : ℕ
  respBytes : ℕ
  duration : ℚ
  origH : Address
  origP : Port
  respH : Address
  respP : Port
  proto : Proto

/-- The events that are sent. A `conn` event has a start time unless it is the last of its flow. -/
inductive Emission where
  | conn (f : Flow) (startTime : Option ℚ)
  | dns (origH respH : Address) (query qtypeName : String)
  | dnsResponse (origH respH : Address) (query : String) (rcode : ℕ) (rcodeName : String)

def maxFlows : ℕ := 50000

def maxPacketBytes : ℕ := 65535

structure Ingest where
  flows : Dict FlowKey Flow
  packetCount : ℕ
  /-- the oldest first -/
  sent : List Emission

def Ingest.start : Ingest := ⟨.empty, 0, []⟩

/-! ## DNS -/

/-- `text.rstrip(".")` -/
def stripDots (s : String) : String := String.ofList (s.toList.reverse.dropWhile (· = '.')).reverse

def qtypeName (qtype : ℕ) : String :=
  if qtype = 1 then "A"
  else if qtype = 28 then "AAAA"
  else if qtype = 16 then "TXT"
  else if qtype = 5 then "CNAME"
  else toString qtype

def rcodeName (rcode : ℕ) : String :=
  match ["NOERROR", "FORMERR", "SERVFAIL", "NXDOMAIN", "NOTIMP", "REFUSED"][rcode]? with
  | some name => name
  | none => toString rcode

/-- The name and the type asked for, when there is a question with a name. -/
def Dns.asked (dns : Dns) : Option (String × ℕ) :=
  if dns.qdcount = 0 then none
  else
    match dns.question with
    | none => none
    | some (name, qtype) => if stripDots name = "" then none else some (stripDots name, qtype)

def extractDnsEvent (dns : Dns) (src dst : Address) : Option Emission :=
  if dns.qr ≠ 0 then none
  else dns.asked.map fun (query, qtype) => .dns src dst query (qtypeName qtype)

/-- The response is about the host that asked, which it is sent to. -/
def extractDnsResponseEvent (dns : Dns) (src dst : Address) : Option Emission :=
  if dns.qr ≠ 1 then none
  else dns.asked.map fun (query, _) => .dnsResponse dst src query dns.rcode (rcodeName dns.rcode)

def dnsEvent (ip : Ip) : Option Emission :=
  match ip.dns with
  | none => none
  | some dns =>
      if dns.qr = 0 then extractDnsEvent dns ip.src ip.dst
      else extractDnsResponseEvent dns ip.src ip.dst

/-! ## The flow table -/

def newFlow (k : FlowKey) (time : ℚ) : Flow where
  startTime := time
  origPkts := 0
  origBytes := 0
  respPkts := 0
  respBytes := 0
  duration := 0
  origH := k.src
  origP := k.srcPort
  respH := k.dst
  respP := k.dstPort
  proto := k.proto

def Flow.addResp (f : Flow) (len : ℕ) (time : ℚ) : Flow :=
  { f with respPkts := f.respPkts + 1, respBytes := f.respBytes + len, duration := time - f.startTime }

def Flow.addOrig (f : Flow) (len : ℕ) (time : ℚ) : Flow :=
  { f with origPkts := f.origPkts + 1, origBytes := f.origBytes + len, duration := time - f.startTime }

/-- A packet of a flow that is open the other way round is a response. -/
def account (k : FlowKey) (len : ℕ) (time : ℚ) (flows : Dict FlowKey Flow) : Dict FlowKey Flow :=
  match flows.get? k.reverse with
  | some f => flows.set k.reverse (f.addResp len time)
  | none => flows.set k (((flows.get? k).getD (newFlow k time)).addOrig len time)

/-- The key of a TCP or UDP packet. -/
def Ip.key? (ip : Ip) : Option FlowKey :=
  ip.layer.map fun (proto, sport, dport) => ⟨ip.src, sport, ip.dst, dport, proto⟩

/-! ## The loop -/

def Ingest.send (s : Ingest) (es : List Emission) : Ingest := { s with sent := s.sent ++ es }

/-- `if packet_count % 500 == 0`: every open flow, with the totals it has so far. -/
def Ingest.emitOpen (s : Ingest) : Ingest :=
  if s.packetCount % 500 = 0 then
    s.send (s.flows.values.map fun f => .conn f (some f.startTime))
  else s

/-- The flows over `MAX_FLOWS` that started first, in a stable sort. -/
def oldest (flows : Dict FlowKey Flow) : List (FlowKey × Flow) :=
  (flows.entries.mergeSort fun a b => a.2.startTime ≤ b.2.startTime).take
    (flows.entries.length - maxFlows)

def Ingest.evict (s : Ingest) : Ingest :=
  { s with
    flows := (oldest s.flows).foldl (fun flows e => flows.erase e.1) s.flows
    sent := s.sent ++ (oldest s.flows).map fun e => .conn e.2 none }

def Ingest.packet (s : Ingest) (p : Packet) : Ingest :=
  let s := { s with packetCount := s.packetCount + 1 }
  if maxPacketBytes < p.len then s
  else
    match p.ip with
    | none => s
    | some ip =>
        let s := s.send (dnsEvent ip).toList
        match ip.key? with
        | none => s
        | some k => ({ s with flows := account k p.len p.time s.flows } : Ingest).emitOpen.evict

/-- The flush of the flows that are still open. -/
def Ingest.finish (s : Ingest) : List Emission := s.sent ++ s.flows.values.map fun f => .conn f none

def ingestPcap (capture : List Packet) : List Emission :=
  (capture.foldl Ingest.packet .start).finish

end NeuralSoc.Pcap
