/-!
# The playbook templates

`PLAYBOOK_TEMPLATES` and `THREAT_CLASS_MAP` of `inference/playbooks.py`.
-/

namespace NeuralSoc.Playbooks

/-- One entry of `PLAYBOOK_TEMPLATES`; the entry of an anomalous flow has no `firewall_rule`. -/
structure PlaybookTemplate where
  title : String
  containmentSteps : List String
  firewallRule : Option String
  forensicChecklist : List String
  mitreMitigations : List String

def volumetricProtocolDdos : PlaybookTemplate where
  title := "Volumetric & Protocol DDoS Containment"
  containmentSteps :=
    ["Enable upstream BGP Blackhole / Rate-Limiting for victim destination port.",
     "Activate SYN Cookies and aggressive TCP connection timeout parameters on gateway edge.",
     "Block amplification reflector source IPs at border ingress filter."]
  firewallRule :=
    some "iptables -A INPUT -p tcp --dport {dst_port} -m limit --limit 25/minute --limit-burst 100 -j ACCEPT"
  forensicChecklist :=
    ["Extract 5-minute PCAP slice around attack onset.",
     "Analyze source IP distribution for spoofed /56 or /64 prefix clusters.",
     "Identify amplification reflection vectors (NTP monlist, DNS ANY, Memcached)."]
  mitreMitigations := ["M1037 - Filter Network Traffic", "M1035 - Limit Hardware & Protocol Interfaces"]

def botnetC2Beaconing : PlaybookTemplate where
  title := "Botnet C2 Infrastructure Isolation & Host Triage"
  containmentSteps :=
    ["Isolate compromised endpoint from local LAN segment.",
     "Block C2 IP/domain at outbound gateway border router.",
     "Revoke active Kerberos / OAuth sessions associated with the infected host."]
  firewallRule := some "iptables -I FORWARD -s {src_ip} -j DROP\niptables -I OUTPUT -d {dst_ip} -j DROP"
  forensicChecklist :=
    ["Acquire volatile memory dump (RAM) of infected endpoint via Volatility / WinPmem.",
     "Inspect process hierarchy for parentless binaries or suspicious PowerShell/rundll32 executions.",
     "Collect scheduled tasks and autorun registry persistence keys."]
  mitreMitigations :=
    ["M1037 - Filter Network Traffic",
     "M1049 - Antivirus/Antimalware",
     "M1040 - Network Segmentation"]

def dgaDomain : PlaybookTemplate where
  title := "Algorithmic DGA Resolution Sinkholing"
  containmentSteps :=
    ["Add domain to internal DNS sinkhole / RPZ (Response Policy Zone) returning 127.0.0.1.",
     "Identify internal client issuing high-entropy recursive DNS requests.",
     "Trigger automated EDR scan on requesting endpoint."]
  firewallRule := some "unbound-control local_zone {domain} always_nxdomain"
  forensicChecklist :=
    ["Extract full DNS query history for requesting source IP over past 24 hours.",
     "Correlate with known DGA seed dates (Conficker, Cryptolocker, Banjori families).",
     "Identify executable responsible for initiating UDP 53 socket connection."]
  mitreMitigations := ["M1031 - Network Intrusion Prevention", "M1020 - Automated Dynamic DNS Filtering"]

def dnsTunnelingExfil : PlaybookTemplate where
  title := "DNS Tunneling & Data Exfiltration Remediation"
  containmentSteps :=
    ["Block authoritative nameserver domain on recursive resolvers.",
     "Enforce strict DNS query length limits (< 60 chars) on perimeter DNS forwarders.",
     "Quarantine endpoint transmitting high-entropy TXT/NULL payloads."]
  firewallRule :=
    some "iptables -A FORWARD -s {src_ip} -p udp --dport 53 -m length --length 150:65535 -j DROP"
  forensicChecklist :=
    ["Reconstruct Base64/Hex stream from decoded subdomain chunks.",
     "Perform DLP classification on reconstructed files to assess data exposure.",
     "Analyze process network sockets to find DNS tunneling tools (e.g. dnscat2, iodine)."]
  mitreMitigations := ["M1037 - Filter Network Traffic", "M1057 - Data Loss Prevention"]

def maliciousJa3Fingerprint : PlaybookTemplate where
  title := "Encrypted C2 Malware Handshake Interception"
  containmentSteps :=
    ["Quarantine infected host immediately via EDR agent.",
     "Blacklist destination C2 IP and JA3 fingerprint across all perimeter sensors.",
     "Scan host for known C2 framework stagers (Cobalt Strike, Sliver, Metasploit)."]
  firewallRule := some "iptables -I FORWARD -s {src_ip} -d {dst_ip} -j DROP"
  forensicChecklist :=
    ["Extract in-memory DLL injections (e.g. Cobalt Strike Reflective DLL Loader).",
     "Inspect named pipes used for local inter-process communication.",
     "Cross-reference JA3 hash ({ja3_hash}) against latest threat intelligence feeds."]
  mitreMitigations :=
    ["M1037 - Filter Network Traffic",
     "M1049 - Antivirus/EDR Containment",
     "M1041 - Execution Prevention"]

def encryptedMalwareTls : PlaybookTemplate where
  title := "Suspicious TLS Handshake Containment"
  containmentSteps :=
    ["Block outbound connections to destination host with anomalous self-signed certificate.",
     "Inspect internal client for unsigned binaries initiating TLS sockets."]
  firewallRule := some "iptables -I OUTPUT -d {dst_ip} -p tcp --dport {dst_port} -j DROP"
  forensicChecklist :=
    ["Extract full X.509 certificate metadata from Zeek ssl.log.",
     "Correlate SNI entropy with malware infrastructure hosting providers."]
  mitreMitigations := ["M1037 - Filter Network Traffic", "M1031 - Network Intrusion Prevention"]

def reconPortScan : PlaybookTemplate where
  title := "Internal Reconnaissance & Port Scan Containment"
  containmentSteps :=
    ["Temporarily restrict source IP from accessing internal server VLANs.",
     "Inspect source host for compromised credentials or scanning tools (Nmap, Masscan).",
     "Verify if target ports contain unpatched vulnerabilities."]
  firewallRule := some "iptables -I FORWARD -s {src_ip} -j DROP"
  forensicChecklist :=
    ["Determine whether scan was automated SYN sweep or interactive discovery.",
     "Check authentication logs on target systems for subsequent lateral movement attempts."]
  mitreMitigations := ["M1030 - Network Segmentation", "M1035 - Disable Unnecessary Services"]

def dataExfiltration : PlaybookTemplate where
  title := "High-Volume Unilateral Data Exfiltration Response"
  containmentSteps :=
    ["Sever outbound internet connection for exfiltrating host immediately.",
     "Trigger emergency incident response team notification and forensic preservation.",
     "Block external drop-site / C2 receiver IP across all egress firewalls."]
  firewallRule :=
    some ("iptables -I FORWARD -s {src_ip} -j REJECT --reject-with icmp-admin-prohibited\n" ++
      "iptables -I OUTPUT -d {dst_ip} -j DROP")
  forensicChecklist :=
    ["Audit endpoint file access logs to determine exact sensitive files accessed before exfiltration.",
     "Identify archive tools (7-Zip, WinRAR) or staging directories used prior to upload.",
     "Calculate total exfiltrated data volume across all concurrent connections."]
  mitreMitigations :=
    ["M1057 - Data Loss Prevention",
     "M1037 - Filter Network Traffic",
     "M1040 - Restrict File & Directory Access"]

def anomalousFlow : PlaybookTemplate where
  title := "Behavioral Flow Anomaly -- Undetermined Cause"
  containmentSteps :=
    ["Do not assume a specific attack type -- this fired because the flow's shape (byte counts, duration, " ++
      "packet count) didn't match the model's training baseline, not because it matched a known-bad pattern.",
     "Cross-reference the same source/destination pair against any other alerts in this time window before " ++
      "acting -- an anomaly alongside a signature-based hit is a much stronger signal than either alone.",
     "If unexplained after review, rate-limit or monitor the source rather than immediately blocking -- the " ++
      "underlying model has not been validated against real-world attack traffic, so a false positive here " ++
      "is a real possibility."]
  firewallRule := none
  forensicChecklist :=
    ["Compare the flow's reconstruction error against the model's threshold (both included in the alert " ++
      "evidence) to gauge how unusual it actually was, not just that it crossed the line.",
     "Check whether the source or destination is new to this network segment -- a first-seen host is a more " ++
      "mundane explanation than a novel attack."]
  mitreMitigations := ["M1030 - Network Segmentation"]

def playbookTemplates : List (String × PlaybookTemplate) :=
  [("VOLUMETRIC_PROTOCOL_DDOS", volumetricProtocolDdos),
   ("BOTNET_C2_BEACONING", botnetC2Beaconing),
   ("DGA_DOMAIN", dgaDomain),
   ("DNS_TUNNELING_EXFIL", dnsTunnelingExfil),
   ("MALICIOUS_JA3_FINGERPRINT", maliciousJa3Fingerprint),
   ("ENCRYPTED_MALWARE_TLS", encryptedMalwareTls),
   ("RECON_PORT_SCAN", reconPortScan),
   ("DATA_EXFILTRATION", dataExfiltration),
   ("ANOMALOUS_FLOW", anomalousFlow)]

def threatClassMap : List (String × String) :=
  [("DDOS", "VOLUMETRIC_PROTOCOL_DDOS"),
   ("VOLUMETRIC_PROTOCOL_DDOS", "VOLUMETRIC_PROTOCOL_DDOS"),
   ("C2 BEACONING", "BOTNET_C2_BEACONING"),
   ("BOTNET_C2_BEACONING", "BOTNET_C2_BEACONING"),
   ("DGA / DNS TUNNELLING", "DGA_DOMAIN"),
   ("DGA", "DGA_DOMAIN"),
   ("DGA_DOMAIN", "DGA_DOMAIN"),
   ("DNS TUNNELLING", "DNS_TUNNELING_EXFIL"),
   ("DNS_TUNNELING_EXFIL", "DNS_TUNNELING_EXFIL"),
   ("ENCRYPTED-TRAFFIC MALWARE", "ENCRYPTED_MALWARE_TLS"),
   ("ENCRYPTED_MALWARE_TLS", "ENCRYPTED_MALWARE_TLS"),
   ("MALICIOUS_JA3_FINGERPRINT", "MALICIOUS_JA3_FINGERPRINT"),
   ("RECONNAISSANCE", "RECON_PORT_SCAN"),
   ("RECON_PORT_SCAN", "RECON_PORT_SCAN"),
   ("DATA EXFILTRATION", "DATA_EXFILTRATION"),
   ("DATA_EXFILTRATION", "DATA_EXFILTRATION"),
   ("ANOMALOUS FLOW", "ANOMALOUS_FLOW"),
   ("ANOMALOUS_FLOW", "ANOMALOUS_FLOW")]

end NeuralSoc.Playbooks
