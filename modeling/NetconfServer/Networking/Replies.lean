import NetconfServer.Memory.CString

/-! # The canned replies -/

namespace NetconfServer.Networking
open Memory CString

def NETCONF_HELLO : CString :=
  lit "<?xml version=\"1.0\" encoding=\"UTF-8\"?>" ++
  lit "<hello xmlns=\"urn:ietf:params:xml:ns:netconf:base:1.0\">" ++
    lit "<capabilities>" ++
      lit "<capability>urn:ietf:params:netconf:base:1.0</capability>" ++
      lit "<capability>urn:ietf:params:netconf:capability:writable-running:1.0</capability>" ++
      lit "<capability>urn:ietf:params:xml:ns:yang:ietf-netconf-monitoring</capability>" ++
      lit "<capability>urn:hms:abcc?module=abcc&amp;revision=2002-01-01</capability>" ++
    lit "</capabilities>" ++
    lit "<session-id>4</session-id>" ++
  lit "</hello>]]>]]>"

def NETCONF_RESPONSE_1 : CString :=
  lit "<?xml version=\"1.0\" encoding=\"UTF-8\"?>" ++
  lit "<rpc-reply xmlns=\"urn:ietf:params:xml:ns:netconf:base:1.0\" message-id=\"1\">" ++
    lit "<data xmlns=\"urn:ietf:params:xml:ns:yang:ietf-netconf-monitoring\">" ++
      lit "module abcc \x7b" ++
        lit "yang-version 1.1;" ++
        lit "namespace \"urn:hms:abcc\";" ++
        lit "prefix \"abcc\";" ++
        lit "revision 2002-01-01;" ++
        lit "container attributes \x7b" ++
          lit "description \"Attributes of the abcc\";" ++
          lit "config true;" ++
          lit "leaf IP_ADDRESS \x7b" ++
            lit "mandatory true;" ++
            lit "type string;" ++
          lit "\x7d" ++
        lit "\x7d" ++
      lit "\x7d" ++
    lit "</data>" ++
  lit "</rpc-reply>]]>]]>"

def NETCONF_RESPONSE_2 : CString :=
  lit "<?xml version=\"1.0\" encoding=\"UTF-8\"?>" ++
  lit "<rpc-reply xmlns=\"urn:ietf:params:xml:ns:netconf:base:1.0\" message-id=\"2\">" ++
    lit "<data>" ++
      lit "<modules-state xmlns=\"urn:ietf:params:xml:ns:yang:ietf-yang-library\">" ++
        lit "<module>" ++
          lit "<name>abcc</name>" ++
          lit "<revision>2002-01-01</revision>" ++
          lit "<namespace>urn:hms:abcc</namespace>" ++
          lit "<conformance-type>implement</conformance-type>" ++
          lit "<submodule></submodule>" ++
          lit "<feature>IP_ADDRESS</feature>" ++
          lit "<deviation></deviation>" ++
        lit "</module>" ++
      lit "</modules-state>" ++
    lit "</data>" ++
  lit "</rpc-reply>]]>]]>"

def NETCONF_RESPONSE_3 : CString :=
  lit "<?xml version=\"1.0\" encoding=\"UTF-8\"?>" ++
  lit "<rpc-reply xmlns=\"urn:ietf:params:xml:ns:netconf:base:1.0\" message-id=\"3\">" ++
    lit "<data>" ++
      lit "<netconf-state xmlns=\"urn:ietf:params:xml:ns:yang:ietf-netconf-monitoring\">" ++
        lit "<schemas>" ++
          lit "<schema>" ++
            lit "<identifier>abcc</identifier>" ++
            lit "<version>2002-01-01</version>" ++
            lit "<format>yang</format>" ++
            lit "<namespace>urn:hms:abcc</namespace>" ++
          lit "</schema>" ++
        lit "</schemas>" ++
      lit "</netconf-state>" ++
    lit "</data>" ++
  lit "</rpc-reply>]]>]]>"

def NETCONF_RESPONSE_6 : CString :=
  lit "<rpc-reply message-id=\"6\" xmlns=\"urn:ietf:params:xml:ns:netconf:base:1.0\">" ++
    lit "<ok/>" ++
  lit "</rpc-reply>]]>]]>"

end NetconfServer.Networking
